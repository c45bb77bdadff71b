import Courier.Proofs.Abi.Starts
import Courier.Proofs.Abi.Tenants

/-!
# Tenants do not interfere

A tenant of a shared interface cannot tell it from one of its own. What the others do moves the
counter that all keys come from and nothing else that is the tenant's (`Alike.effect`), and what the
tenant does comes to the same on both interfaces (`Alike.act`). So `MultiTenant.noninterference`
compares a run with the same run from which the other tenants are gone.
-/

namespace Courier.MultiTenant

open Courier.System (LocalTo Mirrors)

variable {τ σ : Type} [DecidableEq τ] {w : Partition τ} {t u : τ} {h alone : MultiTenant τ σ}
  {c : ClientId} {n : Nat} {mine : List ClientId} {slot : SlotId} {r r' : Handle} {d d' : Abi σ}
  {k : Client σ}

/-- The same record, where the clients of the one interface go by their places on the other. -/
structure Renamed (mine : List ClientId) (r r' : Handle) : Prop where
  reserved : r'.reserved = r.reserved
  key : (r.key = 0 ∧ r'.key = 0) ∨ ∃ n c, mine[n]? = some c ∧ r.key = keyAt c ∧ r'.key = keyAt n

theorem Renamed.append (h : Renamed mine r r') (more : List ClientId) :
    Renamed (mine ++ more) r r' where
  reserved := h.reserved
  key := h.key.imp_right fun ⟨n, c, hn, keys⟩ => by
    refine ⟨n, c, ?_, keys⟩
    rwa [List.getElem?_append_left (List.getElem?_eq_some_iff.mp hn).1]

theorem Renamed.blank : Renamed mine {} {} := ⟨rfl, .inl ⟨rfl, rfl⟩⟩

/-- On the second interface the tenant is alone, and cannot tell it from the first. -/
structure Alike (w : Partition τ) (t : τ) (h alone : MultiTenant τ σ) : Prop where
  mirrors : Mirrors (h.clientsOf t) (w.packet · = t) h.abi.system alone.abi.system
  slots : ∀ slot, w.slot slot = t →
    Renamed (h.clientsOf t) (h.abi.slots slot) (alone.abi.slots slot)
  registered : ∀ n c, (h.clientsOf t)[n]? = some c →
    (alone.abi.registry.get? (keyAt n)).isSome = (h.abi.registry.get? (keyAt c)).isSome
  /-- Every client there is the tenant's, so it goes by its own number. -/
  alone : alone.clientsOf t = List.range alone.abi.system.clients.length

namespace Alike

/-- Nothing that another tenant does makes a difference. -/
theorem effect (alike : Alike w t h alone) (sound : h.Sound w) (other : u ≠ t)
    (effect : Effect w u h h') (few : h'.Few) : Alike w t h' alone := by
  induction effect with
  | still => exact alike
  | write _ slot r own key ih =>
    obtain ⟨mirrors, slots, registered, single⟩ := ih few
    refine ⟨mirrors, fun s hs => ?_, registered, single⟩
    have hne : s ≠ slot := fun same => other (own.symm.trans (same ▸ hs))
    change Renamed _ ((Abi.write _ slot r).slots s) _
    rw [Abi.slots_write_of_ne hne]
    exact slots s hs
  | fill _ p packet own ih =>
    obtain ⟨mirrors, slots, registered, single⟩ := ih few
    exact ⟨mirrors.fill_other (fun same => other (own.symm.trans same)) packet, slots, registered,
      single⟩
  | @add h' before k held ih =>
    have few' : h'.Few := by
      rw [Few, Abi.length_add] at few
      exact Nat.lt_of_succ_lt few
    have sound' := sound.effect before
    obtain ⟨mirrors, slots, registered, single⟩ := ih few'
    have same : (⟨(h'.abi.add k).2, h'.tenants ++ [u]⟩ : MultiTenant τ σ).clientsOf t =
        h'.clientsOf t := by
      rw [clientsOf_append, if_neg other, List.append_nil]
      rfl
    refine ⟨same ▸ mirrors.add_other k, same ▸ slots, ?_, single⟩
    rw [same]
    intro n c hn
    have hne := sound'.key_ne_next few' (List.mem_of_getElem? hn)
    exact (registered n c hn).trans (congrArg _ (Registry.get?_register_of_ne hne _).symm)
  | @work h' _ c own s localTo ih =>
    have few' : h'.Few := by simpa [Few, localTo.length] using few
    obtain ⟨mirrors, slots, registered, single⟩ := ih few'
    refine ⟨mirrors.localTo (fun hc => ?_) (fun p hp hu => other (hu.symm.trans hp)) localTo, slots,
      registered, single⟩
    have hc := mem_clientsOf.mp hc
    exact other (Option.some.inj ((mem_clientsOf.mp own).symm.trans hc))
  | @erase h' before c own ih =>
    have sound' := sound.effect before
    obtain ⟨mirrors, slots, registered, single⟩ := ih few
    refine ⟨mirrors, slots, fun n d hn => ?_, single⟩
    have hd := List.mem_of_getElem? hn
    have hne : keyAt d ≠ keyAt c := by
      intro same
      obtain rfl := sound'.key_inj few hd own same
      exact other (Option.some.inj ((mem_clientsOf.mp own).symm.trans (mem_clientsOf.mp hd)))
    exact (registered n d hn).trans (congrArg _ (Registry.get?_erase_of_ne hne _).symm)

theorem few (alike : Alike w t h alone) (sound : h.Sound w) (few : h.Few) : alone.Few := by
  have hcount : (h.clientsOf t).length ≤ h.tenants.length := by
    rw [clientsOf, List.length_idxsOf]
    exact List.count_le_length
  rw [sound.tenants, ← alike.mirrors.length] at hcount
  exact Nat.lt_of_le_of_lt hcount few

theorem place (alike : Alike w t h alone) (hn : (h.clientsOf t)[n]? = some c) :
    (alone.clientsOf t)[n]? = some n := by
  have hlt : n < alone.abi.system.clients.length :=
    alike.mirrors.length ▸ (List.getElem?_eq_some_iff.mp hn).1
  rw [alike.alone, List.getElem?_range hlt]

theorem no_place (alike : Alike w t h alone) (hn : (h.clientsOf t)[n]? = none) :
    (alone.clientsOf t)[n]? = none := by
  rw [List.getElem?_eq_none_iff, ← alike.mirrors.length] at hn
  rwa [List.getElem?_eq_none_iff, alike.alone, List.length_range]

theorem idxOf_eq (alike : Alike w t h alone) (hn : (h.clientsOf t)[n]? = some c) :
    (alone.clientsOf t).idxOf n = (h.clientsOf t).idxOf c := by
  have nodup : (alone.clientsOf t).Nodup := alike.alone ▸ List.nodup_range
  rw [idxOf_of_getElem? nodup (alike.place hn), alike.mirrors.idxOf hn]

theorem lookup (alike : Alike w t h alone) (sound : h.Sound w) (sound' : alone.Sound w)
    (few : h.Few) (own : ∀ slot ∈ given, w.slot slot = t) :
    (h.abi.lookup given = none ∧ alone.abi.lookup given = none) ∨
      ∃ n c, (h.clientsOf t)[n]? = some c ∧ h.abi.lookup given = some c ∧
        alone.abi.lookup given = some n := by
  cases given with
  | none => exact .inl ⟨rfl, rfl⟩
  | some slot =>
    have hslot := own slot rfl
    simp only [Abi.lookup, Option.bind_some]
    rcases (alike.slots slot hslot).key with ⟨zero, zero'⟩ | ⟨n, c, hn, key, key'⟩
    · rw [zero, zero']
      exact .inl ⟨rfl, rfl⟩
    · have hregistered := alike.registered n c hn
      rw [key, key']
      cases hc : h.abi.registry.get? (keyAt c) with
      | none =>
        rw [hc] at hregistered
        exact .inl ⟨rfl, by simpa using hregistered⟩
      | some e =>
        obtain rfl := sound.found_self few (List.mem_of_getElem? hn) hc
        rw [hc, Option.isSome_some, Option.isSome_iff_exists] at hregistered
        obtain ⟨m, hm⟩ := hregistered
        obtain rfl := sound'.found_self (alike.few sound few)
          (List.mem_of_getElem? (alike.place hn)) hm
        exact .inr ⟨m, e, hn, rfl, hm⟩

-- ---------------------------------------------------------------------------
-- What the tenant itself does
-- ---------------------------------------------------------------------------

theorem write (alike : Alike w t h alone) (slot : SlotId)
    (same : Renamed (h.clientsOf t) r r') :
    Alike w t { h with abi := h.abi.write slot r }
      { alone with abi := alone.abi.write slot r' } where
  mirrors := alike.mirrors
  slots s hs := by
    simp only [Abi.write]
    split
    · exact same
    · exact alike.slots s hs
  registered := alike.registered
  alone := alike.alone

theorem system (alike : Alike w t h alone)
    (mirrors : Mirrors (h.clientsOf t) (w.packet · = t) s s') :
    Alike w t { h with abi.system := s } { alone with abi.system := s' } where
  mirrors := mirrors
  slots := alike.slots
  registered := alike.registered
  alone := by
    rw [mirrors.length, ← alike.mirrors.length]
    exact alike.alone

theorem erase (alike : Alike w t h alone) (sound : h.Sound w) (sound' : alone.Sound w)
    (few : h.Few) (hn : (h.clientsOf t)[n]? = some c) :
    Alike w t { h with abi.registry := h.abi.registry.erase (keyAt c) }
      { alone with abi.registry := alone.abi.registry.erase (keyAt n) } where
  mirrors := alike.mirrors
  slots := alike.slots
  registered j e hj := by
    change ((alone.abi.registry.erase (keyAt n)).get? (keyAt j)).isSome =
      ((h.abi.registry.erase (keyAt c)).get? (keyAt e)).isSome
    by_cases hjn : j = n
    · obtain rfl : e = c := (alike.mirrors.same hj hn).mp hjn
      rw [hjn, Registry.get?_erase, Registry.get?_erase]
    · have hec : e ≠ c := fun same => hjn ((alike.mirrors.same hj hn).mpr same)
      have hkey : keyAt e ≠ keyAt c := fun same => hec <|
        sound.key_inj few (List.mem_of_getElem? hj) (List.mem_of_getElem? hn) same
      have hkey' : keyAt j ≠ keyAt n := fun same => hjn <|
        sound'.key_inj (alike.few sound few) (List.mem_of_getElem? (alike.place hj))
          (List.mem_of_getElem? (alike.place hn)) same
      rw [Registry.get?_erase_of_ne hkey, Registry.get?_erase_of_ne hkey']
      exact alike.registered j e hj
  alone := alike.alone

theorem add (alike : Alike w t h alone) (sound : h.Sound w) (sound' : alone.Sound w)
    (few : h.Few) (held : k.held = []) :
    Alike w t ⟨(h.abi.add k).2, h.tenants ++ [t]⟩
      ⟨(alone.abi.add k).2, alone.tenants ++ [t]⟩ := by
  have few' := alike.few sound few
  constructor
  · rw [sound.clientsOf_add]
    exact alike.mirrors.add sound.called held
  · intro slot hs
    rw [sound.clientsOf_add]
    exact (alike.slots slot hs).append _
  · intro n c hn
    rw [sound.clientsOf_add] at hn
    change ((alone.abi.registry.register _).2.get? (keyAt n)).isSome =
      ((h.abi.registry.register _).2.get? (keyAt c)).isSome
    rcases getElem?_concat_eq_some hn with hn | ⟨rfl, rfl⟩
    · rw [Registry.get?_register_of_ne (sound.key_ne_next few (List.mem_of_getElem? hn)),
        Registry.get?_register_of_ne
          (sound'.key_ne_next few' (List.mem_of_getElem? (alike.place hn)))]
      exact alike.registered n c hn
    · rw [← alike.mirrors.length, ← sound.next, ← sound'.next,
        Registry.get?_register (sound'.next ▸ keyAt_ne_zero few'),
        Registry.get?_register (sound.next ▸ keyAt_ne_zero few)]
      rfl
  · rw [sound'.clientsOf_add, Abi.length_add, List.range_succ, alike.alone]

theorem same (alike : Alike w t { h with abi := d } { alone with abi := d' })
    (sound : h.Sound w) (sound' : alone.Sound w)
    (length : d.system.clients.length = h.abi.system.clients.length)
    (length' : d'.system.clients.length = alone.abi.system.clients.length) :
    Alike w t (h.update t d) (alone.update t d') := by
  rw [sound.update_same length, sound'.update_same length']
  exact alike

theorem register (alike : Alike w t h alone) (sound : h.Sound w) (sound' : alone.Sound w)
    (few : h.Few) (slot : SlotId) (held : k.held = []) :
    Alike w t (h.update t (h.abi.register slot k))
      (alone.update t (alone.abi.register slot k)) := by
  rw [sound.update_more (d := h.abi.register slot k) (h.abi.length_add k),
    sound'.update_more (d := alone.abi.register slot k) (alone.abi.length_add k)]
  have added := alike.add sound sound' few held
  have keys : Renamed ((⟨(h.abi.add k).2, h.tenants ++ [t]⟩ : MultiTenant τ σ).clientsOf t)
      { key := h.abi.registry.next } { key := alone.abi.registry.next } := by
    refine ⟨rfl, .inr ⟨_, _, ?_, sound.next, sound'.next⟩⟩
    rw [sound.clientsOf_add, alike.mirrors.length]
    exact List.getElem?_concat_length ..
  exact added.write slot keys

theorem working (alike : Alike w t h alone) (sound : h.Sound w) (sound' : alone.Sound w)
    (length : s.clients.length = h.abi.system.clients.length)
    (mirrors : Mirrors (h.clientsOf t) (w.packet · = t) s s') :
    Alike w t (h.update t { h.abi with system := s })
      (alone.update t { alone.abi with system := s' }) :=
  (alike.system mirrors).same sound sound' length
    (mirrors.length.trans alike.mirrors.length.symm)

section

variable [Launch σ] {a : Act σ}

theorem start (alike : Alike w t h alone) (sound : h.Sound w) (sound' : alone.Sound w)
    (few : h.Few) (gate : Gate) (call : StartCall) :
    (alone.abi.start gate call).1 = (h.abi.start gate call).1 ∧
      Alike w t (h.update t (h.abi.start gate call).2)
        (alone.update t (alone.abi.start gate call).2) := by
  cases given : call.slot with
  | none =>
    rw [Abi.start_of_nowhere gate given, Abi.start_of_nowhere gate given]
    exact ⟨rfl, alike.same sound sound' rfl rfl⟩
  | some slot =>
    cases built : call.build (σ := σ) gate with
    | error e =>
      rw [Abi.start_of_error given built, Abi.start_of_error given built]
      exact ⟨rfl, (alike.write slot .blank).same sound sound' rfl rfl⟩
    | ok k =>
      rw [Abi.start_of_built given built, Abi.start_of_built given built]
      exact ⟨rfl, alike.register sound sound' few slot (Abi.bare_build built ▸ rfl)⟩

theorem submit (alike : Alike w t h alone) (sound : h.Sound w) (sound' : alone.Sound w)
    (few : h.Few) (own : ∀ slot ∈ given, w.slot slot = t) (lent : ∀ p ∈ packet, w.packet p = t) :
    (alone.abi.submit given packet).1 = (h.abi.submit given packet).1 ∧
      Alike w t (h.update t (h.abi.submit given packet).2)
        (alone.update t (alone.abi.submit given packet).2) := by
  unfold Abi.submit
  rcases alike.lookup sound sound' few own with ⟨none, none'⟩ | ⟨n, c, hn, found, found'⟩
  · rw [none, none']
    exact ⟨rfl, alike.same sound sound' rfl rfl⟩
  · rw [found, found']
    cases packet with
    | none => exact ⟨rfl, alike.same sound sound' rfl rfl⟩
    | some p =>
      obtain ⟨answer, mirrors⟩ := alike.mirrors.submit hn (lent p rfl)
      have localTo := (sound.localTo (List.mem_of_getElem? hn)).submit (lent p rfl)
      exact ⟨congrArg Abi.statusOf answer, alike.working sound sound' localTo.length mirrors⟩

theorem stop (alike : Alike w t h alone) (sound : h.Sound w) (sound' : alone.Sound w)
    (few : h.Few) (own : ∀ slot ∈ given, w.slot slot = t) :
    (alone.abi.stop given).1 = (h.abi.stop given).1 ∧
      Alike w t (h.update t (h.abi.stop given).2) (alone.update t (alone.abi.stop given).2) := by
  cases given with
  | none => exact ⟨rfl, alike.same sound sound' rfl rfl⟩
  | some slot =>
    rcases alike.lookup sound sound' few own with ⟨none, none'⟩ | ⟨n, c, hn, found, found'⟩
    · rw [Abi.stop_of_not_found none, Abi.stop_of_not_found none']
      exact ⟨rfl, alike.same sound sound' rfl rfl⟩
    · have few' := alike.few sound few
      have key := (sound.lookup few found).2
      have key' := (sound'.lookup few' found').2
      obtain ⟨answer, deinited⟩ := alike.mirrors.deinit hn
      obtain ⟨-, released⟩ := deinited.release hn
      have closed : Alike w t { h with abi := h.abi.closed slot c }
          { alone with abi := alone.abi.closed slot n } := by
        rw [Abi.closed, Abi.closed, key, key']
        exact ((alike.erase sound sound' few hn).system released).write slot .blank
      have localTo := (sound.localTo (List.mem_of_getElem? hn)).deinit.release
      rw [Abi.stop_of_lookup found, Abi.stop_of_lookup found']
      exact ⟨congrArg Abi.statusOf answer, closed.same sound sound' localTo.length
        (released.length.trans alike.mirrors.length.symm)⟩

omit [Launch σ] in
theorem context (alike : Alike w t h alone) (sound : h.Sound w) (sound' : alone.Sound w)
    (few : h.Few) (own : ∀ slot ∈ given, w.slot slot = t) (out : Option UInt64) :
    alone.abi.context given out = h.abi.context given out := by
  unfold Abi.context
  rcases alike.lookup sound sound' few own with ⟨none, none'⟩ | ⟨n, c, hn, found, found'⟩
  · rw [none, none']
    rfl
  · rw [found, found', Option.bind_some, Option.bind_some, alike.mirrors.clients n c hn]

theorem enter (alike : Alike w t h alone) (sound : h.Sound w) (sound' : alone.Sound w)
    (few : h.Few) (own : ∀ slot ∈ given, w.slot slot = t) :
    (alone.act t (.enter given)).1 = (h.act t (.enter given)).1 ∧
      Alike w t (h.act t (.enter given)).2 (alone.act t (.enter given)).2 := by
  simp only [MultiTenant.act, Abi.execAct]
  rcases alike.lookup sound sound' few own with ⟨none, none'⟩ | ⟨n, c, hn, found, found'⟩
  · rw [none, none']
    exact ⟨rfl, alike.same sound sound' rfl rfl⟩
  · obtain ⟨-, mirrors⟩ := alike.mirrors.task hn .retain trivial
    have localTo := (sound.localTo (List.mem_of_getElem? hn)).task .retain trivial
    rw [found, found']
    exact ⟨congrArg (fun i => Reply.found (some i)) (alike.idxOf_eq hn),
      alike.working sound sound' localTo.length mirrors⟩

theorem leave (alike : Alike w t h alone) (sound : h.Sound w) (sound' : alone.Sound w)
    (few : h.Few) (own : w.slot slot = t) :
    (alone.act t (.leave slot)).1 = (h.act t (.leave slot)).1 ∧
      Alike w t (h.act t (.leave slot)).2 (alone.act t (.leave slot)).2 := by
  have own : ∀ slot' ∈ some slot, w.slot slot' = t := by rintro _ ⟨⟩; exact own
  simp only [MultiTenant.act, Abi.execAct]
  rcases alike.lookup sound sound' few own with ⟨none, none'⟩ | ⟨n, c, hn, found, found'⟩
  · obtain ⟨e, removed⟩ := Abi.remove_of_not_found none
    obtain ⟨e', removed'⟩ := Abi.remove_of_not_found none'
    rw [removed, removed']
    exact ⟨rfl, alike.same sound sound' rfl rfl⟩
  · have key := (sound.lookup few found).2
    have key' := (sound'.lookup (alike.few sound few) found').2
    have left := (alike.erase sound sound' few hn).write slot .blank
    rw [Abi.remove_of_lookup found, Abi.remove_of_lookup found', key, key']
    refine ⟨congrArg (fun i => Reply.found (some i)) (alike.idxOf_eq hn), ?_⟩
    exact Alike.same left sound sound' rfl rfl

theorem on (alike : Alike w t h alone) (sound : h.Sound w) (sound' : alone.Sound w)
    {task : Task σ} (own : task.Owned (w.packet · = t)) :
    (alone.act t (.on n task)).1 = (h.act t (.on n task)).1 ∧
      Alike w t (h.act t (.on n task)).2 (alone.act t (.on n task)).2 := by
  simp only [MultiTenant.act, Abi.execAct]
  cases hn : (h.clientsOf t)[n]? with
  | none =>
    rw [alike.no_place hn]
    exact ⟨rfl, alike.same sound sound' rfl rfl⟩
  | some c =>
    obtain ⟨answer, mirrors⟩ := alike.mirrors.task hn task own
    have localTo := (sound.localTo (List.mem_of_getElem? hn)).task task own
    rw [alike.place hn]
    exact ⟨congrArg Reply.answered answer, alike.working sound sound' localTo.length mirrors⟩

/-- What the tenant does comes to the same on both interfaces. -/
theorem act (alike : Alike w t h alone) (sound : h.Sound w) (sound' : alone.Sound w)
    (few : h.Few) (own : a.Owned w t) :
    (alone.act t a).1 = (h.act t a).1 ∧ Alike w t (h.act t a).2 (alone.act t a).2 := by
  cases a with
  | zero slot => exact ⟨rfl, (alike.write slot .blank).same sound sound' rfl rfl⟩
  | copy source target =>
    exact ⟨rfl, (alike.write target (alike.slots source own.1)).same sound sound' rfl rfl⟩
  | fill p packet => exact ⟨rfl, alike.working sound sound' rfl (alike.mirrors.fill p packet)⟩
  | start gate call =>
    obtain ⟨status, after⟩ := alike.start sound sound' few gate call
    exact ⟨congrArg Reply.started status, after⟩
  | register slot k => exact ⟨rfl, alike.register sound sound' few slot rfl⟩
  | submit given packet =>
    obtain ⟨status, after⟩ := alike.submit sound sound' few own.1 own.2
    exact ⟨congrArg Reply.called status, after⟩
  | stop given =>
    obtain ⟨status, after⟩ := alike.stop sound sound' few own
    exact ⟨congrArg Reply.called status, after⟩
  | context given out =>
    refine ⟨?_, alike.same sound sound' rfl rfl⟩
    simp only [MultiTenant.act, Abi.execAct, alike.context sound sound' few own out]
  | enter given => exact alike.enter sound sound' few own
  | leave slot => exact alike.leave sound sound' few own
  | on n task => exact alike.on sound sound' own

end

end Alike

-- ---------------------------------------------------------------------------
-- Runs
-- ---------------------------------------------------------------------------

def initial (m : Memory) (slots : SlotId → Handle) : MultiTenant τ σ :=
  { abi := { system := { memory := m }, slots } }

def calls (h : MultiTenant τ σ) (t : τ) : List Completion :=
  (h.abi.system.completions.filter (·.client ∈ h.clientsOf t)).map (·.among (h.clientsOf t))

theorem sound_initial {slots : SlotId → Handle} (zeroed : ∀ slot, (slots slot).isZeroed)
    (m : Memory) : Sound w (initial m slots : MultiTenant τ σ) where
  tenants := rfl
  next := rfl
  found key c hc := by
    rw [Registry.get?] at hc
    split at hc <;> cases hc
  slots slot := .inl (beq_iff_eq.mp (zeroed slot))
  held c p hp := by cases hp
  called x hx := by cases hx

theorem alike_initial {slots : SlotId → Handle} (zeroed : ∀ slot, (slots slot).isZeroed)
    (m : Memory) (t : τ) : Alike w t (initial m slots : MultiTenant τ σ) (initial m slots) where
  mirrors := ⟨List.nodup_nil, rfl, nofun, nofun, fun _ _ => rfl, rfl⟩
  slots slot _ := ⟨rfl, .inl ⟨beq_iff_eq.mp (zeroed slot), beq_iff_eq.mp (zeroed slot)⟩⟩
  registered := nofun
  alone := rfl

section

variable [Launch σ]

theorem length_run (h : MultiTenant τ σ) (acts : List (τ × Act σ)) :
    h.abi.system.clients.length ≤ (h.run acts).2.abi.system.clients.length := by
  induction acts generalizing h with
  | nil => exact Nat.le_refl _
  | cons x acts ih => exact Nat.le_trans (h.abi.length_execAct _ x.2) (ih (h.act x.1 x.2).2)

/-- Whatever all the tenants do, one of them is where its own acts alone would have got it. -/
theorem Alike.run (alike : Alike w t h alone) (sound : h.Sound w) (sound' : alone.Sound w)
    {acts : List (τ × Act σ)} (owned : ∀ x ∈ acts, x.2.Owned w x.1) (few : (h.run acts).2.Few) :
    (alone.run (acts.filter (·.1 = t))).1 = (h.run acts).1.filter (·.1 = t) ∧
      Alike w t (h.run acts).2 (alone.run (acts.filter (·.1 = t))).2 := by
  induction acts generalizing h alone with
  | nil => exact ⟨rfl, alike⟩
  | cons x acts ih =>
    obtain ⟨u, a⟩ := x
    have own : a.Owned w u := owned (u, a) List.mem_cons_self
    have rest : ∀ x ∈ acts, x.2.Owned w x.1 := fun x hx => owned x (List.mem_cons_of_mem _ hx)
    have after : (h.act u a).2.Few := Nat.lt_of_le_of_lt (length_run _ acts) few
    have before : h.Few := Nat.lt_of_le_of_lt (h.abi.length_execAct _ a) after
    have effect := effect_act sound before own
    -- An act of the tenant moves both interfaces, any other act only the first.
    by_cases hu : u = t
    · subst hu
      obtain ⟨reply, alike'⟩ := alike.act sound sound' before own
      have effect' := effect_act sound' (alike.few sound before) own
      obtain ⟨replies, final⟩ := ih alike' (sound.effect effect) (sound'.effect effect') rest few
      simp only [MultiTenant.run, List.filter_cons, decide_true, if_true]
      exact ⟨by rw [reply, replies], final⟩
    · obtain ⟨replies, final⟩ :=
        ih (alike.effect sound hu effect after) (sound.effect effect) sound' rest few
      simp only [MultiTenant.run, List.filter_cons, hu, decide_false]
      exact ⟨replies, final⟩

/-- Take all that the others do out of a run, and a tenant gets the same replies, its clients call
back for the same packets in the same order with the same contexts and reports, its packets have
the same contents, and its slots the same records, but for the keys. These go by the place of
their client among those that were made: among all of them in the one run, among those of the
tenant in the other. -/
theorem noninterference (w : Partition τ) (m : Memory) {slots : SlotId → Handle}
    (zeroed : ∀ slot, (slots slot).isZeroed) (acts : List (τ × Act σ))
    (owned : ∀ x ∈ acts, x.2.Owned w x.1) (few : ((initial m slots).run acts).2.Few) (t : τ) :
    let all := (initial m slots).run acts
    let alone := (initial m slots).run (acts.filter (·.1 = t))
    alone.1 = all.1.filter (·.1 = t) ∧
    alone.2.abi.system.completions = all.2.calls t ∧
    (∀ p, w.packet p = t → alone.2.abi.system.memory p = all.2.abi.system.memory p) ∧
    ∀ slot, w.slot slot = t →
      Renamed (all.2.clientsOf t) (all.2.abi.slots slot) (alone.2.abi.slots slot) := by
  have sound : Sound w (initial m slots : MultiTenant τ σ) := sound_initial zeroed m
  obtain ⟨replies, alike⟩ := (alike_initial zeroed m t).run sound sound owned few
  exact ⟨replies, alike.mirrors.completions, alike.mirrors.memory, alike.slots⟩

end

def halves : Partition Bool where
  slot slot := slot < 5
  packet p := p < 3

/-- One tenant has an engine that fails, a start that is refused and a client that it stops twice;
the other echoes a packet through a copy of its slot. -/
def neighbours : List (Bool × Act Service) :=
  [(true, .register 0 <| .ofEngine .zero [] .native 8 <|
      .scripted { onSubmit := .panic, onShutdown := .panic }),
    (false, .start .restricted Abi.echoStart),
    (true, .submit (some 0) (some 0)),
    (false, .fill 4 { data := some [1, 2], dataSize := 2 }),
    (false, .copy 5 6),
    (false, .submit (some 6) (some 4)),
    (true, .start .restricted { Abi.echoStart with slot := some 1, hasCallback := false }),
    (true, .stop (some 0)),
    (true, .stop (some 0)),
    (false, .context (some 5) (some 0)),
    (false, .stop (some 6)),
    (false, .submit (some 5) (some 4))]

theorem noninterference_neighbours :
    let all := (initial (fun _ => {}) fun _ => {}).run neighbours
    let alone := (initial (fun _ => {}) fun _ => {}).run (neighbours.filter (·.1 = false))
    (∀ x ∈ neighbours, x.2.Owned halves x.1) ∧ all.2.Few ∧
      alone.1 = all.1.filter (·.1 = false) ∧
      alone.1.map (·.2) = [.started .ok, .nothing, .nothing, .called .ok, .read .ok (some 7),
        .called .ok, .called .clientInvalid] ∧
      alone.2.abi.system.completions = all.2.calls false ∧
      (all.2.calls false).map (fun x => (x.packet, x.context, x.report)) =
        [(4, 7, ⟨.ok, [1, 2]⟩)] ∧
      Renamed (all.2.clientsOf false) (all.2.abi.slots 5) (alone.2.abi.slots 5) ∧
      ((all.2.abi.slots 5).key, (alone.2.abi.slots 5).key) = (2, 1) := by
  intro all alone
  have owned : ∀ x ∈ neighbours, x.2.Owned halves x.1 := by decide
  have few : all.2.Few := by decide +kernel
  obtain ⟨replies, calls, -, slots⟩ :=
    noninterference halves (fun _ => {}) (fun _ => rfl) neighbours owned few false
  exact ⟨owned, few, replies, by decide +kernel, calls, by decide +kernel, slots 5 rfl,
    by decide +kernel⟩

end Courier.MultiTenant
