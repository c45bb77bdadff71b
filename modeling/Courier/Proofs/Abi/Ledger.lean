import Courier.Proofs.Abi.Runs
import Courier.Proofs.Lists
import Courier.Proofs.Registry
import Mathlib.Algebra.Group.Nat.Defs

/-!
# Keys given out and taken back

A session is a run of the interface with a ledger of its keys: a start that went well issues
one, a stop that went well retires one. In whatever way the host uses its slots, keys count up
from one, so as long as the counter does not wrap around no key is zero and none is given out
twice (`Session.counted`).
-/

namespace Courier

theorem StartError.status_ne_ok (e : StartError) : e.status ≠ .ok := by
  cases e with
  | address error => cases error <;> simp [status]
  | _ => simp [status]

namespace Abi

open Courier.System (Trace perform)

inductive KeyEvent where
  /-- A client was registered, with this context for its calls back. -/
  | issued (key : UInt64) (context : UInt64)
  | retired (key : UInt64)
deriving DecidableEq, Repr

abbrev Ledger := List KeyEvent

namespace Ledger

def issued? : KeyEvent → Option UInt64
  | .issued key _ => some key
  | .retired _ => none

def issued (ledger : Ledger) : List UInt64 := ledger.filterMap issued?

def Live (ledger : Ledger) (key context : UInt64) : Prop :=
  ∃ before after, ledger = before ++ .issued key context :: after ∧ .retired key ∉ after

variable {ledger : Ledger} {key context : UInt64}

theorem live_issued (k c : UInt64) : Live (ledger ++ [.issued k c]) key context ↔
    Live ledger key context ∨ (key = k ∧ context = c) := by
  constructor
  · rintro ⟨before, after, hsplit, kept⟩
    rcases split_append_toList (o := some (KeyEvent.issued k c)) hsplit with
      ⟨rest, rfl, rfl⟩ | ⟨-, hnew, -⟩
    · exact .inl ⟨before, rest, rfl, fun hmem => kept (List.mem_append_left _ hmem)⟩
    · cases hnew
      exact .inr ⟨rfl, rfl⟩
  · rintro (⟨before, after, rfl, kept⟩ | ⟨rfl, rfl⟩)
    · refine ⟨before, after ++ [.issued k c], by simp, ?_⟩
      simpa using kept
    · exact ⟨ledger, [], rfl, List.not_mem_nil⟩

theorem live_retired (k : UInt64) : Live (ledger ++ [.retired k]) key context ↔
    Live ledger key context ∧ key ≠ k := by
  constructor
  · rintro ⟨before, after, hsplit, kept⟩
    rcases split_append_toList (o := some (KeyEvent.retired k)) hsplit with
      ⟨rest, rfl, rfl⟩ | ⟨-, hnew, -⟩
    · refine ⟨⟨before, rest, rfl, fun hmem => kept (List.mem_append_left _ hmem)⟩, ?_⟩
      rintro rfl
      exact kept (List.mem_append_right _ List.mem_cons_self)
    · cases hnew
  · rintro ⟨⟨before, after, rfl, kept⟩, hne⟩
    refine ⟨before, after ++ [.retired k], by simp, ?_⟩
    simpa using ⟨kept, hne⟩

theorem issued_snoc_issued (ledger : Ledger) (key context : UInt64) :
    Ledger.issued (ledger ++ [.issued key context]) = ledger.issued ++ [key] :=
  List.filterMap_append

theorem issued_snoc_retired (ledger : Ledger) (key : UInt64) :
    Ledger.issued (ledger ++ [.retired key]) = ledger.issued :=
  List.filterMap_append.trans (List.append_nil _)

end Ledger

variable {σ : Type} [Launch σ] {d e : Abi σ} {command : Command σ}

/-- What a call does to the keys, as the host can tell from its status and its slot. -/
def keyEvent? (d : Abi σ) : Command σ → Option KeyEvent
  | .start gate call =>
    if (d.start gate call).1 = .ok then
      call.slot.map fun slot => .issued ((d.start gate call).2.slots slot).key call.context
    else none
  | .register slot k => some (.issued ((d.register slot k.bare).slots slot).key k.context)
  | .stop (some slot) =>
    if (d.stop (some slot)).1 = .ok then some (.retired (d.slots slot).key) else none
  | _ => none

/-- Any commands of some kinds, in any order. -/
inductive Session (allowed : Command σ → Prop) (d : Abi σ) : Trace σ → Ledger → Abi σ → Prop
  | nil : Session allowed d [] [] d
  | snoc {trace ledger e} (session : Session allowed d trace ledger e) (command : Command σ)
      (ok : allowed command) :
      Session allowed d (trace ++ (e.system.perform (command.ops e)).1)
        (ledger ++ (e.keyEvent? command).toList) (e.exec command)

theorem Session.run {allowed : Command σ → Prop} (session : Session allowed d trace ledger e) :
    d.Run trace e := by
  induction session with
  | nil => exact .nil
  | snoc _ command _ ih => exact ih.snoc command

-- ---------------------------------------------------------------------------
-- What a call does to the registry
-- ---------------------------------------------------------------------------

/-- The ways in which a start ends. -/
inductive Starts (d : Abi σ) (gate : Gate) (call : StartCall) : StartStatus × Abi σ → Prop
  | nowhere (absent : call.slot = none) : Starts d gate call (.invalidArgument, d)
  | failed {slot e} (given : call.slot = some slot) (built : call.build (σ := σ) gate = .error e) :
      Starts d gate call (e.status, d.write slot {})
  | done {slot k} (given : call.slot = some slot) (built : call.build gate = .ok k) :
      Starts d gate call (.ok, d.register slot k)

theorem start_of_nowhere (gate : Gate) {call : StartCall} (absent : call.slot = none)
    (d : Abi σ) : d.start gate call = (.invalidArgument, d) := by
  simp only [start, absent]

theorem start_of_error {gate : Gate} {call : StartCall} {error : StartError}
    (given : call.slot = some slot) (built : call.build (σ := σ) gate = .error error)
    (d : Abi σ) : d.start gate call = (error.status, d.write slot {}) := by
  simp only [start, given, built]

theorem start_of_built {gate : Gate} {call : StartCall} {k : Client σ}
    (given : call.slot = some slot) (built : call.build gate = .ok k) (d : Abi σ) :
    d.start gate call = (.ok, d.register slot k) := by
  have hwrite : (d.write slot {}).register slot k = d.register slot k := by
    simp only [register, add, write, Abi.mk.injEq, true_and]
    funext other
    split <;> rfl
  simp only [start, given, built, hwrite]

theorem starts (d : Abi σ) (gate : Gate) (call : StartCall) :
    d.Starts gate call (d.start gate call) := by
  cases given : call.slot with
  | none =>
    rw [start_of_nowhere gate given]
    exact .nowhere given
  | some slot =>
    cases built : call.build (σ := σ) gate with
    | error e =>
      rw [start_of_error given built]
      exact .failed given built
    | ok k =>
      rw [start_of_built given built]
      exact .done given built

def closed (d : Abi σ) (slot : SlotId) (c : ClientId) : Abi σ where
  system := ((d.system.deinit c).2.release c).2
  registry := d.registry.erase (d.slots slot).key
  slots := (d.write slot {}).slots

omit [Launch σ] in
theorem remove_of_lookup {slot : SlotId} (found : d.lookup (some slot) = some c) :
    d.remove (d.slots slot).key =
      (some c, { d with registry := d.registry.erase (d.slots slot).key }) := by
  have hfound : d.registry.get? (d.slots slot).key = some c := found
  have hkey : (d.slots slot).key ≠ 0 := by
    intro hzero
    rw [hzero, Registry.get?_zero] at hfound
    cases hfound
  simp only [remove, Registry.remove_eq, hfound, if_neg hkey]

omit [Launch σ] in
theorem remove_of_not_found {slot : SlotId} (missing : d.lookup (some slot) = none) :
    ∃ e, d.remove (d.slots slot).key = (none, e) := by
  have hmissing : d.registry.get? (d.slots slot).key = none := missing
  simp only [remove, Registry.remove_eq, hmissing]
  exact ⟨_, rfl⟩

theorem stop_of_lookup {slot : SlotId} (found : d.lookup (some slot) = some c) :
    d.stop (some slot) = (statusOf (d.system.deinit c).1, d.closed slot c) := by
  simp only [stop, remove_of_lookup found, close, release, write, closed]

theorem stop_of_not_found {slot : SlotId} (missing : d.lookup (some slot) = none) :
    d.stop (some slot) = (.clientInvalid, d) := by
  obtain ⟨e, removed⟩ := remove_of_not_found missing
  simp only [stop, removed]

inductive CommandStep (d : Abi σ) : Command σ → Option KeyEvent → Abi σ → Prop
  | idle {command : Command σ} {e : Abi σ} (registry : e.registry = d.registry)
      (system : e.system = d.system) : CommandStep d command none e
  | submitted (slot : Option SlotId) (c : ClientId) (p : PacketId) :
      CommandStep d (.submit slot (some p)) none { d with system := (d.system.submit c p).2 }
  | behind (op : System.Op σ) :
      CommandStep d (.behind op) none { d with system := (d.system.act op).2 }
  | started {gate call} (slot : SlotId) {k} (built : call.build gate = .ok k) :
      CommandStep d (.start gate call) (some (.issued d.registry.next call.context))
        (d.register slot k)
  | registered (slot : SlotId) (k : Client σ) :
      CommandStep d (.register slot k) (some (.issued d.registry.next k.context))
        (d.register slot k.bare)
  | stopped {slot : SlotId} {c} (found : d.lookup (some slot) = some c) :
      CommandStep d (.stop (some slot)) (some (.retired (d.slots slot).key)) (d.closed slot c)
  /-- The client is gone, although its engine failed on the way. -/
  | lost {slot : SlotId} {c} (found : d.lookup (some slot) = some c)
      (failed : statusOf (d.system.deinit c).1 ≠ .ok) :
      CommandStep d (.stop (some slot)) none (d.closed slot c)

theorem commandStep (d : Abi σ) (command : Command σ) :
    d.CommandStep command (d.keyEvent? command) (d.exec command) := by
  have given (slot : SlotId) (k : Client σ) :
      ((d.register slot k).slots slot).key = d.registry.next := by
    simp [register, add, write, Registry.register]
  cases command with
  | write => exact .idle rfl rfl
  | start gate call =>
    have ways := d.starts gate call
    simp only [keyEvent?, exec]
    generalize d.start gate call = out at ways
    cases ways with
    | nowhere => exact .idle rfl rfl
    | @failed slot e =>
      rw [if_neg e.status_ne_ok]
      exact .idle rfl rfl
    | @done slot k hslot built =>
      simp only [if_true, hslot, Option.map_some, given]
      exact .started slot built
  | register slot k =>
    simp only [keyEvent?, given]
    exact .registered slot k
  | submit slot packet =>
    simp only [keyEvent?, exec, submit]
    cases d.lookup slot with
    | none => exact .idle rfl rfl
    | some c =>
      cases packet with
      | none => exact .idle rfl rfl
      | some p => exact .submitted slot c p
  | stop slot =>
    cases slot with
    | none => exact .idle rfl rfl
    | some slot =>
      simp only [keyEvent?, exec]
      cases found : d.lookup (some slot) with
      | none =>
        rw [stop_of_not_found found]
        exact .idle rfl rfl
      | some c =>
        rw [stop_of_lookup found]
        split
        · exact .stopped found
        · next failed => exact .lost found failed
  | behind op => exact .behind op

-- ---------------------------------------------------------------------------
-- Counting
-- ---------------------------------------------------------------------------

/-- Fewer keys than the counter has were issued. -/
def Ledger.Few (ledger : Ledger) : Prop := ledger.issued.length < 2 ^ 64 - 1

theorem Ledger.Few.left (h : Ledger.Few (ledger ++ more)) : Ledger.Few ledger := by
  refine Nat.lt_of_le_of_lt ?_ h
  rw [Ledger.issued, Ledger.issued, List.filterMap_append, List.length_append]
  exact Nat.le_add_right ..

/-- The keys issued so far are the numbers from one on, and no other is in the registry. -/
structure Counted (ledger : Ledger) (r : Registry) : Prop where
  issued : ledger.issued.map UInt64.toNat = List.range' 1 ledger.issued.length
  next : r.next.toNat = 1 + ledger.issued.length
  keys : r.keys ⊆ ledger.issued

theorem Counted.nodup (h : Counted ledger r) : ledger.issued.Nodup := by
  refine List.Nodup.of_map UInt64.toNat ?_
  rw [h.issued]
  exact List.nodup_range'

theorem Counted.zero_not_mem (h : Counted ledger r) : 0 ∉ ledger.issued := by
  intro hzero
  have hmem := List.mem_map_of_mem (f := UInt64.toNat) hzero
  rw [h.issued] at hmem
  simp at hmem

theorem Counted.next_not_mem (h : Counted ledger r) : r.next ∉ ledger.issued := by
  intro hnext
  have hmem := List.mem_map_of_mem (f := UInt64.toNat) hnext
  rw [h.issued, h.next] at hmem
  simp at hmem

theorem Counted.erase (h : Counted ledger r) (key : UInt64) : Counted ledger (r.erase key) where
  issued := h.issued
  next := h.next
  keys := by
    rw [Registry.keys_erase]
    exact List.Subset.trans (List.filter_subset_self _) h.keys

theorem Counted.register (h : Counted ledger r) (few : ledger.issued.length + 1 < 2 ^ 64 - 1)
    (context : UInt64) (c : ClientId) :
    Counted (ledger ++ [.issued r.next context]) (r.register c).2 := by
  have hissued := Ledger.issued_snoc_issued ledger r.next context
  have hlength : (ledger.issued ++ [r.next]).length = ledger.issued.length + 1 :=
    List.length_append
  constructor
  · rw [hissued, hlength, List.map_append, h.issued, List.map_singleton, h.next,
      List.range'_1_concat]
  · have hnext : (r.register c).2.next.toNat = r.next.toNat + 1 := by
      refine (UInt64.toNat_add r.next 1).trans (Nat.mod_eq_of_lt ?_)
      have := h.next
      simp only [UInt64.toNat_one]
      omega
    rw [hissued, hlength, hnext, h.next, Nat.add_assoc]
  · rw [hissued, Registry.keys_register]
    refine List.append_subset.mpr ⟨?_, List.subset_append_right _ _⟩
    exact List.Subset.trans (List.filter_subset_self _)
      (List.Subset.trans h.keys (List.subset_append_left _ _))

theorem counted_empty : Counted [] ({} : Registry) := ⟨rfl, rfl, nofun⟩

theorem Counted.exec (h : Counted ledger d.registry) (command : Command σ)
    (few : Ledger.Few (ledger ++ (d.keyEvent? command).toList)) :
    Counted (ledger ++ (d.keyEvent? command).toList) (d.exec command).registry := by
  have commandStep := d.commandStep command
  generalize d.keyEvent? command = event, d.exec command = e at commandStep few
  have issue (context : UInt64) (few : Ledger.Few (ledger ++ [.issued d.registry.next context])) :
      Counted (ledger ++ [.issued d.registry.next context])
        (d.registry.register d.system.clients.length).2 := by
    rw [Ledger.Few, Ledger.issued_snoc_issued, List.length_append] at few
    exact h.register few context _
  cases commandStep with
  | idle registry => simpa [registry] using h
  | submitted | behind => simpa using h
  | started => exact issue _ few
  | registered => exact issue _ few
  | @stopped slot =>
    have hissued := Ledger.issued_snoc_retired ledger (d.slots slot).key
    obtain ⟨issued, next, keys⟩ := h.erase (d.slots slot).key
    exact ⟨hissued.symm ▸ issued, hissued.symm ▸ next, hissued.symm ▸ keys⟩
  | @lost slot => simpa [closed] using h.erase (d.slots slot).key

theorem Session.counted {allowed : Command σ → Prop} {m : Memory} {slots : SlotId → Handle}
    (session : Session allowed { system := { memory := m }, slots } trace ledger e)
    (few : ledger.Few) : Counted ledger e.registry := by
  induction session with
  | nil => exact counted_empty
  | snoc _ command _ ih => exact (ih few.left).exec command few

end Abi

end Courier
