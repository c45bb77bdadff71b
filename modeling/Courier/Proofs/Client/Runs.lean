import Courier.Client.Start
import Courier.Engine.Scripted
import Courier.Proofs.Client.Submission
import Courier.Proofs.Lists

/-!
# Runs of clients

A run is any finite sequence of operations, from a system without clients: clients are
opened, called, shared and given up, engines go on with their work, and whoever
holds a loan ends it. `Run.accounting` is the law of all runs in which no engine
fails in a submit: for each packet the submits that were accepted are as many as
the calls back and the open loans together, and the count in flight is the count
of the open loans. It holds after every operation and in between, whenever no delivery
is under way.
-/

namespace Courier.System

inductive Op (σ : Type) where
  | start (k : Client σ)
  | fill (p : PacketId) (packet : Packet)
  | submit (c : ClientId) (p : PacketId)
  | deinit (c : ClientId)
  | retain (c : ClientId)
  | release (c : ClientId)
  /-- The engine of a client does some of its work, if it is still there. -/
  | work (c : ClientId) (engine : σ) (settlements : List Settlement)
  /-- Somebody who holds a loan of the client ends it. -/
  | settle (c : ClientId) (place : Place) (ending : Ending)
  | share (c : ClientId)
  | unshare (c : ClientId)

variable {σ : Type} [Engine σ]

def act (s : System σ) : Op σ → Option Answer × System σ
  | .start k => (none, (s.add k.bare).2)
  | .fill p packet => (none, { s with memory := s.memory.set p packet })
  | .submit c p => (some (s.submit c p).1, (s.submit c p).2)
  | .deinit c => (some (s.deinit c).1, (s.deinit c).2)
  | .retain c => (none, s.retain c)
  | .release c => (none, (s.release c).2)
  | .work c engine settlements =>
    (none, if (s.engine? c).isSome then s.react c engine settlements else s)
  | .settle c place ending => (none, s.settle c place ending)
  | .share c => (none, s.share c)
  | .unshare c => (none, s.unshare c)

abbrev Trace (σ : Type) := List (Op σ × Option Answer)

inductive Run (s : System σ) : Trace σ → System σ → Prop
  | nil : Run s [] s
  | snoc {trace t} (run : Run s trace t) (op : Op σ) :
      Run s (trace ++ [(op, (t.act op).1)]) (t.act op).2

theorem Run.append {s t u : System σ} (first : s.Run trace t) (second : t.Run more u) :
    s.Run (trace ++ more) u := by
  induction second with
  | nil => simpa using first
  | snoc _ op ih => simpa using ih.snoc op

def perform (s : System σ) : List (Op σ) → Trace σ × System σ
  | [] => ([], s)
  | op :: ops =>
    let rest := (s.act op).2.perform ops
    ((op, (s.act op).1) :: rest.1, rest.2)

theorem run_perform (s : System σ) (ops : List (Op σ)) :
    s.Run (s.perform ops).1 (s.perform ops).2 := by
  induction ops generalizing s with
  | nil => exact .nil
  | cons op ops ih => exact (Run.nil.snoc op).append (ih (s.act op).2)

def submitted? (asked : Answer → Bool) (c : ClientId) : Op σ × Option Answer → Option PacketId
  | (.submit d p, some answer) => if d = c ∧ asked answer then some p else none
  | _ => none

def acceptedIn (c : ClientId) (trace : Trace σ) : List PacketId :=
  trace.filterMap (submitted? accepts c)

def issuedIn (c : ClientId) (trace : Trace σ) : List PacketId :=
  trace.filterMap (submitted? issues c)

def fails : Op σ × Option Answer → Bool
  | (.submit .., some .panicked) => true
  | _ => false

def Calm (trace : Trace σ) : Prop := ∀ entry ∈ trace, fails entry = false

instance (trace : Trace σ) : Decidable (Calm trace) :=
  inferInstanceAs (Decidable (∀ entry ∈ trace, fails entry = false))

/-- A system in the course of a call on a client, between two deliveries, with the packet
whose submit is under way. -/
inductive Midway (c : ClientId) : System σ → Option PacketId → System σ → Prop
  | submitting {s p r} (reaction : s.reaction? c p = some r) (count : Nat) :
      Midway c s (some p) (s.offer c p { r with settlements := r.settlements.take count })
  | closing {s engine t} (taken : s.take c = (some engine, t)) (count : Nat) :
      Midway c s none ((t.log (.released c)).settleAll c
        ((Engine.shutdown engine (t.hold c)).settlements.take count))
  | abandoning {s engine t} (taken : s.take c = (some engine, t)) (count : Nat) :
      Midway c s none (((t.log (.released c)).settleAll c
        (Engine.shutdown engine (t.hold c)).settlements).settleAll c
          ((List.range count).map (⟨·, .drop⟩)))
  /-- The client goes with the last reference to it. -/
  | releasing {s t} (h : Midway c (s.modify c fun k => { k with references := k.references - 1 })
      none t) : Midway c s none t

-- ---------------------------------------------------------------------------
-- Every operation keeps every account
-- ---------------------------------------------------------------------------

variable {s t : System σ} {c d : ClientId} {issued : List PacketId}

namespace Balanced

theorem tearDown (h : s.Balanced c issued) (d : ClientId) (engine : σ) :
    (s.tearDown d engine).2.Balanced c issued :=
  ((h.log rfl).settleAll d _).abandon d

theorem deinit (h : s.Balanced c issued) (d : ClientId) : (s.deinit d).2.Balanced c issued := by
  have ht := h.take d
  unfold System.deinit
  split
  · next hs => rwa [hs] at ht
  · next hs => exact (hs ▸ ht).tearDown d _

theorem release (h : s.Balanced c issued) (d : ClientId) : (s.release d).2.Balanced c issued := by
  have hr : (s.modify d fun k => { k with references := k.references - 1 }).Balanced c issued :=
    h.modify (fun _ => rfl) fun _ => rfl
  have ht := hr.take d
  unfold System.release
  simp only
  split
  · split
    · next hs => rwa [hs] at ht
    · next hs => exact (hs ▸ ht).tearDown d _
  · exact hr

theorem act (h : s.Balanced c issued) (op : Op σ) :
    (s.act op).2.Balanced c (issued ++ (submitted? issues c (op, (s.act op).1)).toList) := by
  have keep {t : System σ} (ht : t.Balanced c issued) : t.Balanced c (issued ++ none.toList) := by
    simpa using ht
  cases op with
  | start k => exact keep (h.add rfl rfl)
  | fill p packet => exact keep (h.congr rfl rfl rfl)
  | submit d p =>
    have hs := h.submit d p
    simp only [System.act, submitted?]
    by_cases hd : d = c ∧ issues (s.submit d p).1
    · rw [if_pos hd] at hs ⊢
      exact hs
    · rw [if_neg hd] at hs ⊢
      exact hs
  | deinit d => exact keep (h.deinit d)
  | retain d => exact keep (h.modify (fun _ => rfl) fun _ => rfl)
  | release d => exact keep (h.release d)
  | work d engine settlements =>
    simp only [System.act]
    split
    · exact keep (h.react d engine settlements)
    · exact keep h
  | settle d place ending => exact keep (h.settle d place ending)
  | share d => exact keep (h.modify (fun _ => rfl) fun _ => rfl)
  | unshare d =>
    have hu : (s.modify d fun k => { k with sharers := k.sharers - 1 }).Balanced c issued :=
      h.modify (fun _ => rfl) fun _ => rfl
    exact keep (hu.abandon d)

end Balanced

theorem Run.balanced (run : s.Run trace t) (h : s.Balanced c issued) :
    t.Balanced c (issued ++ issuedIn c trace) := by
  induction run with
  | nil => simpa [issuedIn] using h
  | @snoc trace t _ op ih =>
    rw [issuedIn, List.filterMap_append, ← List.append_assoc]
    have hs := ih.act op
    cases hi : submitted? issues c (op, (t.act op).1) <;> simpa [issuedIn, hi] using hs

-- ---------------------------------------------------------------------------
-- Each loan is one of its kind
-- ---------------------------------------------------------------------------

omit [Engine σ] in
theorem Balanced.once (h : s.Balanced c issued) (hp : issued[n]? = some p) :
    (s.ended c ++ s.loans c).count (p, n) = 1 := by
  rw [h.loans.count_eq]
  exact List.count_eq_one_of_mem (nodup_zipIdx issued) (List.mem_zipIdx_iff_getElem?.mpr hp)

-- ---------------------------------------------------------------------------
-- The law of accounting
-- ---------------------------------------------------------------------------

omit [Engine σ] in
/-- Without failures loans are issued for the accepted packets only. -/
theorem issuedIn_of_calm (calm : Calm trace) (c : ClientId) :
    issuedIn c trace = acceptedIn c trace := by
  refine List.filterMap_congr ?_
  intro entry hentry
  obtain ⟨op, answer⟩ := entry
  cases op with
  | submit d p =>
    match answer with
    | none => rfl
    | some (.value (.ok ())) => rfl
    | some (.value (.error _)) => rfl
    | some .panicked => exact absurd (calm _ hentry) (by simp [fails])
  | _ => rfl

omit [Engine σ] in
theorem balanced_empty (m : Memory) (c : ClientId) :
    Balanced { memory := m, clients := ([] : List (Client σ)) } c [] where
  length_held := rfl
  loans := .nil
  inFlight := rfl
  counted := by simp [completions]

theorem Midway.balanced (h : Midway c s pending t) (hb : s.Balanced d issued) :
    t.Balanced d (issued ++ if c = d then pending.toList else []) := by
  induction h with
  | submitting hr count =>
    by_cases hd : c = d
    · subst hd
      obtain ⟨k, hk⟩ := client_of_reaction hr
      simpa using hb.offer hk _ _
    · simpa [hd] using hb.offer_other hd _ _
  | closing ht count =>
    have hb' := hb.take c
    rw [ht] at hb'
    simpa using (hb'.log rfl).settleAll c _
  | abandoning ht count =>
    have hb' := hb.take c
    rw [ht] at hb'
    simpa using ((hb'.log rfl).settleAll c _).settleAll c _
  | releasing _ ih => exact ih (hb.modify (fun _ => rfl) fun _ => rfl)

/-- In a run without failures every packet was accepted exactly as often as it was called back
for or is still on loan, the count in flight is the count of open loans, and a submit that is
refused adds nothing to either. In the course of a call the packet on its way counts as well. -/
theorem Run.accounting {m : Memory} (run : Run { memory := m } trace t) (calm : Calm trace)
    (c : ClientId) (p : PacketId) :
    (acceptedIn c trace).count p = t.calls c p + t.outstanding c p ∧
    t.inFlight c = (t.loans c).length ∧
    (∀ x ∈ t.completions, x.client = c → 0 ≤ x.inFlight) ∧
    (∀ e, (t.submit c p).1 = .value (.error e) → t.outstanding c p = 0 →
      (t.submit c p).2.calls c p = t.calls c p ∧ (t.submit c p).2.outstanding c p = 0) ∧
    ∀ d pending u, Midway d t pending u →
      (acceptedIn c trace ++ if d = c then pending.toList else []).count p =
        u.calls c p + u.outstanding c p ∧
      u.inFlight c = (u.loans c).length := by
  have hb : t.Balanced c (acceptedIn c trace) := by
    simpa [issuedIn_of_calm calm] using run.balanced (balanced_empty m c)
  refine ⟨(hb.count p).symm, hb.inFlight, hb.counted, ?_, ?_⟩
  · intro e he hp
    obtain ⟨called, hcalled⟩ := submit_refused he
    exact hcalled.none_of hp
  · intro d pending u hu
    have hu := hu.balanced hb
    exact ⟨(hu.count p).symm, hu.inFlight⟩

/-- An engine with room for one packet hands the second one back, and takes it later. -/
def oneRoom : List (Op Scripted) :=
  [.start <| .ofEngine .zero [] .native 7 { onSubmit := .hold (some 1) }, .submit 0 0, .submit 0 1,
    .settle 0 0 (.complete .ok [5]), .submit 0 1, .share 0, .deinit 0, .submit 0 2]

theorem accounting_oneRoom :
    let out := perform {} oneRoom
    Run {} out.1 out.2 ∧ Calm out.1 ∧ acceptedIn 0 out.1 = [0, 1] ∧
      (acceptedIn 0 out.1).count 1 = out.2.calls 0 1 + out.2.outstanding 0 1 :=
  ⟨run_perform {} oneRoom, by decide, by decide,
    (Run.accounting (run_perform {} oneRoom) (by decide) 0 1).1⟩

end Courier.System
