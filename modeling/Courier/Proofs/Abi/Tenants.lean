import Courier.Proofs.Client.Mirrors
import Courier.Proofs.Abi.Ledger

/-!
# Tenants

Several tenants use one interface, each with slots and packets of its own, and so with clients
of its own; a tenant may well be a single client. They share the registry and its counter. Every
key in a slot is that of a client of the slot's tenant (`MultiTenant.Sound`), so an act of a tenant
can do no more than a `MultiTenant.Effect`.
-/

namespace Courier

open Courier.System (Answer LocalTo Mirrors)

/-- Whose the slots and the packets are. -/
structure Partition (τ : Type) where
  slot : SlotId → τ
  packet : PacketId → τ

/-- The interface with the tenants that the clients behind it belong to. -/
structure MultiTenant (τ σ : Type) where
  abi : Abi σ := {}
  tenants : List τ := []

/-- The key of a client, where each client is registered as it is made. -/
def keyAt (c : ClientId) : UInt64 := UInt64.ofNat (c + 1)

theorem keyAt_succ (c : ClientId) : keyAt c + 1 = keyAt (c + 1) :=
  (UInt64.ofNat_add (c + 1) 1).symm

theorem toNat_keyAt {c : Nat} (h : c < 2 ^ 64 - 1) : (keyAt c).toNat = c + 1 := by
  rw [keyAt, UInt64.toNat_ofNat']
  exact Nat.mod_eq_of_lt (by omega)

theorem keyAt_ne_zero {c : Nat} (h : c < 2 ^ 64 - 1) : keyAt c ≠ 0 := by
  intro zero
  have hnat := toNat_keyAt h
  rw [zero] at hnat
  simp at hnat

theorem keyAt_inj {c d : Nat} (hc : c < 2 ^ 64 - 1) (hd : d < 2 ^ 64 - 1)
    (h : keyAt c = keyAt d) : c = d := by
  have hnat := congrArg UInt64.toNat h
  rw [toNat_keyAt hc, toNat_keyAt hd] at hnat
  exact Nat.succ.inj hnat

namespace MultiTenant

/-- What a tenant does, and what goes on with its clients. These go by their place among the
clients of the tenant. -/
inductive Act (σ : Type) where
  | zero (slot : SlotId)
  | copy (source target : SlotId)
  | fill (p : PacketId) (packet : Packet)
  | start (gate : Gate) (call : StartCall)
  /-- A client with an engine of any kind is registered. -/
  | register (slot : SlotId) (k : Client σ)
  | submit (slot : Option SlotId) (packet : Option PacketId)
  | stop (slot : Option SlotId)
  | context (slot : Option SlotId) (out : Option UInt64)
  /-- The first part of a call that others may overtake: it gets a reference. -/
  | enter (slot : Option SlotId)
  /-- The first part of a stop that others may overtake: the client leaves the registry. -/
  | leave (slot : SlotId)
  | on (n : Nat) (task : Task σ)

inductive Reply where
  | nothing
  | started (status : StartStatus)
  | called (status : CallStatus)
  | read (status : CallStatus) (word : Option UInt64)
  | found (n : Option Nat)
  | answered (answer : Option Answer)
deriving DecidableEq

variable {τ σ : Type}

/-- The tenant keeps to slots and packets of its own. -/
def Act.Owned (w : Partition τ) (t : τ) : Act σ → Prop
  | .zero slot => w.slot slot = t
  | .copy source target => w.slot source = t ∧ w.slot target = t
  | .fill p _ => w.packet p = t
  | .start _ call => ∀ slot ∈ call.slot, w.slot slot = t
  | .register slot _ => w.slot slot = t
  | .submit given packet => (∀ slot ∈ given, w.slot slot = t) ∧ ∀ p ∈ packet, w.packet p = t
  | .stop given | .context given _ | .enter given => ∀ slot ∈ given, w.slot slot = t
  | .leave slot => w.slot slot = t
  | .on _ task => task.Owned (w.packet · = t)

instance [DecidableEq τ] (w : Partition τ) (t : τ) : (a : Act σ) → Decidable (a.Owned w t)
  | .zero slot => inferInstanceAs (Decidable (w.slot slot = t))
  | .copy source target => inferInstanceAs (Decidable (w.slot source = t ∧ w.slot target = t))
  | .fill p _ => inferInstanceAs (Decidable (w.packet p = t))
  | .start _ call => inferInstanceAs (Decidable (∀ slot ∈ call.slot, w.slot slot = t))
  | .register slot _ => inferInstanceAs (Decidable (w.slot slot = t))
  | .submit given packet => inferInstanceAs <|
    Decidable ((∀ slot ∈ given, w.slot slot = t) ∧ ∀ p ∈ packet, w.packet p = t)
  | .stop given | .context given _ | .enter given =>
    inferInstanceAs (Decidable (∀ slot ∈ given, w.slot slot = t))
  | .leave slot => inferInstanceAs (Decidable (w.slot slot = t))
  | .on _ task => inferInstanceAs (Decidable (task.Owned (w.packet · = t)))

end MultiTenant

section

variable {σ : Type}

theorem Abi.slots_write_of_ne (h : slot ≠ target) (d : Abi σ) (r : Handle) :
    (d.write target r).slots slot = d.slots slot :=
  if_neg h

theorem Abi.length_add (d : Abi σ) (k : Client σ) :
    (d.add k).2.system.clients.length = d.system.clients.length + 1 :=
  List.length_append

variable [Launch σ]

def Abi.execAct (d : Abi σ) (mine : List ClientId) : MultiTenant.Act σ → MultiTenant.Reply × Abi σ
  | .zero slot => (.nothing, d.write slot {})
  | .copy source target => (.nothing, d.copy source target)
  | .fill p packet =>
    (.nothing, { d with system := { d.system with memory := d.system.memory.set p packet } })
  | .start gate call => (.started (d.start gate call).1, (d.start gate call).2)
  | .register slot k => (.nothing, d.register slot k.bare)
  | .submit slot packet => (.called (d.submit slot packet).1, (d.submit slot packet).2)
  | .stop slot => (.called (d.stop slot).1, (d.stop slot).2)
  | .context slot out => (.read (d.context slot out).1 (d.context slot out).2, d)
  | .enter slot =>
    match d.lookup slot with
    | none => (.found none, d)
    | some c => (.found (some (mine.idxOf c)), { d with system := d.system.retain c })
  | .leave slot =>
    match d.remove (d.slots slot).key with
    | (none, _) => (.found none, d)
    | (some c, d) => (.found (some (mine.idxOf c)), d.write slot {})
  | .on n task =>
    match mine[n]? with
    | none => (.nothing, d)
    | some c =>
      let (answer, system) := d.system.task c task
      (.answered answer, { d with system })

theorem Abi.length_execAct (d : Abi σ) (mine : List ClientId) (a : MultiTenant.Act σ) :
    d.system.clients.length ≤ (d.execAct mine a).2.system.clients.length := by
  have same (c : ClientId) : LocalTo (fun _ => True) c d.system d.system := .refl fun _ _ => trivial
  cases a with
  | zero | copy | fill | context => exact Nat.le_refl _
  | start gate call =>
    have ways := d.starts gate call
    simp only [execAct]
    generalize d.start gate call = out at ways
    cases ways with
    | nowhere | failed => exact Nat.le_refl _
    | done => exact Nat.le_of_succ_le (Nat.le_of_eq (d.length_add _).symm)
  | register slot k => exact Nat.le_of_succ_le (Nat.le_of_eq (d.length_add k.bare).symm)
  | submit slot packet =>
    simp only [execAct, submit]
    split
    · exact Nat.le_refl _
    · next c _ =>
      split
      · exact Nat.le_refl _
      · exact Nat.le_of_eq ((same c).submit trivial).length.symm
  | stop slot =>
    cases slot with
    | none => exact Nat.le_refl _
    | some slot =>
      simp only [execAct]
      cases found : d.lookup (some slot) with
      | none => simp only [stop_of_not_found found, Nat.le_refl]
      | some c =>
        rw [stop_of_lookup found]
        exact Nat.le_of_eq (same c).deinit.release.length.symm
  | enter slot =>
    simp only [execAct]
    split
    · exact Nat.le_refl _
    · next c _ => exact Nat.le_of_eq ((same c).task .retain trivial).length.symm
  | leave slot =>
    simp only [execAct]
    cases found : d.lookup (some slot) with
    | none =>
      obtain ⟨e, removed⟩ := remove_of_not_found found
      simp only [removed, Nat.le_refl]
    | some c => simp only [remove_of_lookup found, write, Nat.le_refl]
  | on n task =>
    simp only [execAct]
    split
    · exact Nat.le_refl _
    · next c _ => exact Nat.le_of_eq ((same c).task task (by cases task <;> trivial)).length.symm

end

namespace MultiTenant

variable {τ σ : Type} [DecidableEq τ] {w : Partition τ} {t u : τ} {h : MultiTenant τ σ}
  {c e : ClientId}
  {slot : SlotId} {r : Handle} {d : Abi σ} {k : Client σ}

def clientsOf (h : MultiTenant τ σ) (t : τ) : List ClientId := h.tenants.idxsOf t

def update (h : MultiTenant τ σ) (t : τ) (d : Abi σ) : MultiTenant τ σ where
  abi := d
  tenants := h.tenants ++ List.replicate (d.system.clients.length - h.tenants.length) t

theorem mem_clientsOf : c ∈ h.clientsOf t ↔ h.tenants[c]? = some t := by
  rw [clientsOf, List.mem_idxsOf_iff_exists_getElem_pos, List.getElem?_eq_some_iff]
  simp only [beq_iff_eq]

theorem clientsOf_append (d : Abi σ) (tenants : List τ) (u : τ) :
    (⟨d, tenants ++ [u]⟩ : MultiTenant τ σ).clientsOf t =
      (⟨d, tenants⟩ : MultiTenant τ σ).clientsOf t ++ if u = t then [tenants.length] else [] := by
  simp [clientsOf, List.idxsOf_append, List.idxsOf_cons]

theorem mem_clientsOf_append (hc : c ∈ h.clientsOf t) (d : Abi σ) (u : τ) :
    c ∈ (⟨d, h.tenants ++ [u]⟩ : MultiTenant τ σ).clientsOf t := by
  rw [clientsOf_append]
  exact List.mem_append_left _ hc

/-- Fewer clients came than there are keys. With as many the counter would wrap around to zero. -/
def Few (h : MultiTenant τ σ) : Prop := h.abi.system.clients.length < 2 ^ 64 - 1

instance (h : MultiTenant τ σ) : Decidable h.Few :=
  inferInstanceAs (Decidable (h.abi.system.clients.length < 2 ^ 64 - 1))

-- ---------------------------------------------------------------------------
-- One interface
-- ---------------------------------------------------------------------------

/-- Every key tells which client it was made for, and every slot and loan whose it is. -/
structure Sound (w : Partition τ) (h : MultiTenant τ σ) : Prop where
  tenants : h.tenants.length = h.abi.system.clients.length
  next : h.abi.registry.next = keyAt h.abi.system.clients.length
  found : ∀ key c, h.abi.registry.get? key = some c →
    key = keyAt c ∧ c < h.abi.system.clients.length
  slots : ∀ slot, (h.abi.slots slot).key = 0 ∨
    ∃ c ∈ h.clientsOf (w.slot slot), (h.abi.slots slot).key = keyAt c
  held : ∀ c p, some p ∈ h.abi.system.held c → c ∈ h.clientsOf (w.packet p)
  called : ∀ x ∈ h.abi.system.completions, x.client < h.abi.system.clients.length

/-- What a tenant can do to the interface, in one step or in several. -/
inductive Effect (w : Partition τ) (t : τ) (h : MultiTenant τ σ) : MultiTenant τ σ → Prop
  | still : Effect w t h h
  | write {h'} (before : Effect w t h h') (slot : SlotId) (r : Handle) (own : w.slot slot = t)
      (key : r.key = 0 ∨ ∃ c ∈ h'.clientsOf t, r.key = keyAt c) :
      Effect w t h { h' with abi := h'.abi.write slot r }
  | fill {h'} (before : Effect w t h h') (p : PacketId) (packet : Packet) (own : w.packet p = t) :
      Effect w t h { h' with abi.system.memory := h'.abi.system.memory.set p packet }
  | add {h'} (before : Effect w t h h') (k : Client σ) (held : k.held = []) :
      Effect w t h ⟨(h'.abi.add k).2, h'.tenants ++ [t]⟩
  | work {h'} (before : Effect w t h h') (c : ClientId) (own : c ∈ h'.clientsOf t) {s : System σ}
      (localTo : LocalTo (w.packet · = t) c h'.abi.system s) :
      Effect w t h { h' with abi.system := s }
  | erase {h'} (before : Effect w t h h') (c : ClientId) (own : c ∈ h'.clientsOf t) :
      Effect w t h { h' with abi.registry := h'.abi.registry.erase (keyAt c) }

namespace Sound

theorem lt (sound : h.Sound w) (hc : c ∈ h.clientsOf t) : c < h.abi.system.clients.length :=
  sound.tenants ▸ (List.getElem?_eq_some_iff.mp (mem_clientsOf.mp hc)).1

theorem clientsOf_add (sound : h.Sound w) (d : Abi σ) (t : τ) :
    (⟨d, h.tenants ++ [t]⟩ : MultiTenant τ σ).clientsOf t =
      h.clientsOf t ++ [h.abi.system.clients.length] := by
  rw [clientsOf_append, if_pos rfl, sound.tenants]
  rfl

theorem localTo (sound : h.Sound w) (hc : c ∈ h.clientsOf t) :
    LocalTo (w.packet · = t) c h.abi.system h.abi.system := by
  refine .refl fun p hp => ?_
  have hp := mem_clientsOf.mp (sound.held c p hp)
  exact Option.some.inj (hp.symm.trans (mem_clientsOf.mp hc))

theorem key_inj (sound : h.Sound w) (few : h.Few) (hc : c ∈ h.clientsOf t)
    (he : e ∈ h.clientsOf u) (same : keyAt c = keyAt e) : c = e :=
  keyAt_inj (Nat.lt_trans (sound.lt hc) few) (Nat.lt_trans (sound.lt he) few) same

theorem key_ne_next (sound : h.Sound w) (few : h.Few) (hc : c ∈ h.clientsOf t) :
    keyAt c ≠ h.abi.registry.next := by
  intro same
  have hlt := sound.lt hc
  obtain rfl := keyAt_inj (Nat.lt_trans hlt few) few (same.trans sound.next)
  exact Nat.lt_irrefl _ hlt

theorem found_self (sound : h.Sound w) (few : h.Few) (hc : c ∈ h.clientsOf t)
    (found : h.abi.registry.get? (keyAt c) = some e) : e = c := by
  obtain ⟨key, he⟩ := sound.found _ e found
  exact (keyAt_inj (Nat.lt_trans (sound.lt hc) few) (Nat.lt_trans he few) key).symm

theorem lookup (sound : h.Sound w) (few : h.Few) (found : h.abi.lookup (some slot) = some c) :
    c ∈ h.clientsOf (w.slot slot) ∧ (h.abi.slots slot).key = keyAt c := by
  have hget : h.abi.registry.get? (h.abi.slots slot).key = some c := found
  rcases sound.slots slot with zero | ⟨d, hd, key⟩
  · rw [zero, Registry.get?_zero] at hget
    cases hget
  · rw [key] at hget
    obtain rfl := sound.found_self few hd hget
    exact ⟨hd, key⟩

theorem mem_of_lookup (sound : h.Sound w) (few : h.Few) (own : ∀ slot ∈ given, w.slot slot = t)
    (found : h.abi.lookup given = some c) : c ∈ h.clientsOf t := by
  cases given with
  | none => cases found
  | some slot => exact own slot rfl ▸ (sound.lookup few found).1

theorem write (sound : h.Sound w)
    (key : r.key = 0 ∨ ∃ c ∈ h.clientsOf (w.slot slot), r.key = keyAt c) :
    Sound w { h with abi := h.abi.write slot r } where
  tenants := sound.tenants
  next := sound.next
  found := sound.found
  slots other := by
    simp only [Abi.write]
    split
    · next same => exact same ▸ key
    · exact sound.slots other
  held := sound.held
  called := sound.called

theorem add (sound : h.Sound w) (t : τ) (held : k.held = []) :
    Sound w ⟨(h.abi.add k).2, h.tenants ++ [t]⟩ where
  tenants := by rw [Abi.length_add, List.length_append, sound.tenants, List.length_singleton]
  next := by
    rw [Abi.length_add, ← keyAt_succ, ← sound.next]
    rfl
  found key c hc := by
    rw [Abi.length_add]
    by_cases hkey : key = h.abi.registry.next
    · subst hkey
      have hne : h.abi.registry.next ≠ 0 := by
        intro zero
        rw [zero] at hc
        cases hc
      obtain rfl := Option.some.inj ((Registry.get?_register hne _).symm.trans hc)
      exact ⟨sound.next, Nat.lt_succ_self _⟩
    · have hold : h.abi.registry.get? key = some c :=
        (Registry.get?_register_of_ne hkey _).symm.trans hc
      exact ⟨(sound.found key c hold).1, Nat.lt_succ_of_lt (sound.found key c hold).2⟩
  slots slot := (sound.slots slot).imp_right fun ⟨c, hc, hkey⟩ =>
    ⟨c, mem_clientsOf_append hc _ t, hkey⟩
  held c p hp := by
    simp only [Abi.add, System.held, System.client?_add] at hp
    split at hp
    · simp [held] at hp
    · exact mem_clientsOf_append (sound.held c p hp) _ t
  called x hx := by
    rw [Abi.length_add]
    exact Nat.lt_succ_of_lt (sound.called x hx)

theorem work (sound : h.Sound w) (own : c ∈ h.clientsOf t) {s : System σ}
    (localTo : LocalTo (w.packet · = t) c h.abi.system s) :
    Sound w { h with abi.system := s } where
  tenants := sound.tenants.trans localTo.length.symm
  next := by simpa [localTo.length] using sound.next
  found := by simpa [localTo.length] using sound.found
  slots := sound.slots
  held d p hp := by
    by_cases hd : c = d
    · subst hd
      exact localTo.held p hp ▸ own
    · refine sound.held d p ?_
      rwa [System.held, localTo.others d hd] at hp
  called x hx := by
    obtain ⟨called, hcalled, hclients⟩ := localTo.completions
    rw [hcalled] at hx
    rw [localTo.length]
    rcases List.mem_append.mp hx with hx | hx
    · exact sound.called x hx
    · exact hclients x hx ▸ sound.lt own

theorem effect (sound : h.Sound w) (effect : Effect w t h h') : h'.Sound w := by
  induction effect with
  | still => exact sound
  | write _ slot r own key ih => exact ih.write (own ▸ key)
  | fill _ p packet own ih => exact ⟨ih.tenants, ih.next, ih.found, ih.slots, ih.held, ih.called⟩
  | add _ k held ih => exact ih.add t held
  | work _ c own localTo ih => exact ih.work own localTo
  | erase _ c own ih =>
    refine ⟨ih.tenants, ih.next, fun key d hd => ?_, ih.slots, ih.held, ih.called⟩
    exact ih.found key d ((Registry.get?_erase_eq_some_iff _ _).mp hd).1

theorem update_same (sound : h.Sound w)
    (length : d.system.clients.length = h.abi.system.clients.length) :
    h.update t d = { h with abi := d } := by
  simp [update, length, sound.tenants]

theorem update_more (sound : h.Sound w)
    (length : d.system.clients.length = h.abi.system.clients.length + 1) :
    h.update t d = ⟨d, h.tenants ++ [t]⟩ := by
  simp [update, length, sound.tenants]

end Sound

-- ---------------------------------------------------------------------------
-- Acts
-- ---------------------------------------------------------------------------

theorem Effect.same (effect : Effect w t h { h with abi := d }) (sound : h.Sound w)
    (length : d.system.clients.length = h.abi.system.clients.length) :
    Effect w t h (h.update t d) :=
  sound.update_same length ▸ effect

theorem Effect.register (sound : h.Sound w) (own : w.slot slot = t) (held : k.held = []) :
    Effect w t h (h.update t (h.abi.register slot k)) := by
  rw [sound.update_more (d := h.abi.register slot k) (h.abi.length_add k)]
  refine (Effect.still.add k held).write slot { key := h.abi.registry.next } own
    (.inr ⟨h.abi.system.clients.length, ?_, sound.next⟩)
  rw [sound.clientsOf_add]
  exact List.mem_append_right _ List.mem_cons_self

theorem Effect.working (sound : h.Sound w) (own : c ∈ h.clientsOf t) {s : System σ}
    (localTo : LocalTo (w.packet · = t) c h.abi.system s) :
    Effect w t h (h.update t { h.abi with system := s }) :=
  (Effect.still.work c own localTo).same sound localTo.length

section

variable [Launch σ] {a : Act σ}

def act (h : MultiTenant τ σ) (t : τ) (a : Act σ) : Reply × MultiTenant τ σ :=
  let (reply, d) := h.abi.execAct (h.clientsOf t) a
  (reply, h.update t d)

def run (h : MultiTenant τ σ) : List (τ × Act σ) → List (τ × Reply) × MultiTenant τ σ
  | [] => ([], h)
  | (t, a) :: acts =>
    let (reply, h) := h.act t a
    let (replies, h) := h.run acts
    ((t, reply) :: replies, h)

theorem effect_start (sound : h.Sound w) (gate : Gate) {call : StartCall}
    (own : ∀ slot ∈ call.slot, w.slot slot = t) :
    Effect w t h (h.update t (h.abi.start gate call).2) := by
  have ways := h.abi.starts gate call
  generalize h.abi.start gate call = out at ways
  cases ways with
  | nowhere => exact Effect.still.same sound rfl
  | @failed slot _ given =>
    exact (Effect.still.write slot {} (own slot given) (.inl rfl)).same sound rfl
  | done given built => exact .register sound (own _ given) (Abi.bare_build built ▸ rfl)

theorem effect_stop (sound : h.Sound w) (few : h.Few)
    (own : ∀ slot ∈ given, w.slot slot = t) :
    Effect w t h (h.update t (h.abi.stop given).2) := by
  cases given with
  | none => exact Effect.still.same sound rfl
  | some slot =>
    cases found : h.abi.lookup (some slot) with
    | none =>
      rw [Abi.stop_of_not_found found]
      exact Effect.still.same sound rfl
    | some c =>
      obtain ⟨hc, key⟩ := sound.lookup few found
      rw [own slot rfl] at hc
      have localTo := (sound.localTo hc).deinit.release
      rw [Abi.stop_of_lookup found, Abi.closed, key]
      exact (((Effect.still.work c hc localTo).erase c hc).write slot {} (own slot rfl)
        (.inl rfl)).same sound localTo.length

theorem effect_act (sound : h.Sound w) (few : h.Few) (own : a.Owned w t) :
    Effect w t h (h.act t a).2 := by
  cases a with
  | zero slot => exact (Effect.still.write slot {} own (.inl rfl)).same sound rfl
  | copy source target =>
    exact (Effect.still.write target _ own.2 (own.1 ▸ sound.slots source)).same sound rfl
  | fill p packet => exact (Effect.still.fill p packet own).same sound rfl
  | start gate call => exact effect_start sound gate own
  | register slot k => exact .register sound own rfl
  | submit given packet =>
    simp only [act, Abi.execAct, Abi.submit]
    split
    · exact Effect.still.same sound rfl
    · next c found =>
      split
      · exact Effect.still.same sound rfl
      · next p =>
        have hc := sound.mem_of_lookup few own.1 found
        exact .working sound hc ((sound.localTo hc).submit (own.2 p rfl))
  | stop given => exact effect_stop sound few own
  | context => exact Effect.still.same sound rfl
  | enter given =>
    simp only [act, Abi.execAct]
    split
    · exact Effect.still.same sound rfl
    · next c found =>
      have hc := sound.mem_of_lookup few own found
      exact .working sound hc ((sound.localTo hc).task .retain trivial)
  | leave slot =>
    simp only [act, Abi.execAct]
    cases found : h.abi.lookup (some slot) with
    | none =>
      obtain ⟨e, removed⟩ := Abi.remove_of_not_found found
      rw [removed]
      exact Effect.still.same sound rfl
    | some c =>
      obtain ⟨hc, key⟩ := sound.lookup few found
      rw [Abi.remove_of_lookup found, key]
      exact ((Effect.still.erase c (own ▸ hc)).write slot {} own (.inl rfl)).same sound rfl
  | on n task =>
    simp only [act, Abi.execAct]
    split
    · exact Effect.still.same sound rfl
    · next c hn =>
      have hc : c ∈ h.clientsOf t := List.mem_of_getElem? hn
      exact .working sound hc ((sound.localTo hc).task task own)

end

end MultiTenant

end Courier
