import Courier.Proofs.Client.References

/-!
# What an engine is asked

The journal has every packet that an engine was given and every shutdown. A submit adds its
packet unless the client was closed, a deinit the shutdown unless the client was closed, and
whatever ends packets adds nothing.
-/

namespace Courier

inductive Request where
  | submit (p : PacketId)
  | shutdown
deriving DecidableEq, Repr

def Entry.request? (c : ClientId) : Entry → Option Request
  | .offered d p => if d = c then some (.submit p) else none
  | .released d => if d = c then some .shutdown else none
  | .completed _ => none

namespace System

variable {σ : Type} {s : System σ} {c d : ClientId}

def requests (s : System σ) (c : ClientId) : List Request :=
  s.journal.filterMap (Entry.request? c)

-- ---------------------------------------------------------------------------
-- Requests
-- ---------------------------------------------------------------------------

theorem requests_log (s : System σ) (e : Entry) :
    (s.log e).requests c = s.requests c ++ (e.request? c).toList := by
  cases h : e.request? c <;> simp [requests, log, h]

@[simp] theorem requests_modify (s : System σ) (d : ClientId) (f : Client σ → Client σ) :
    (s.modify d f).requests c = s.requests c := rfl

theorem requests_callBack (s : System σ) (d : ClientId) (place : Place) (p : PacketId)
    (r : Report) : (s.callBack d place p r).requests c = s.requests c := by
  unfold callBack
  split
  · rfl
  · exact (requests_log s _).trans (List.append_nil _)

theorem requests_settle (s : System σ) (d : ClientId) (place : Place) (e : Ending) :
    (s.settle d place e).requests c = s.requests c := by
  unfold settle
  split
  · rfl
  · exact requests_callBack _ d place _ _

theorem requests_settleAll (s : System σ) (d : ClientId) (settlements : List Settlement) :
    (s.settleAll d settlements).requests c = s.requests c := by
  induction settlements generalizing s with
  | nil => rfl
  | cons x rest ih => exact (ih _).trans (requests_settle s d x.place x.ending)

theorem requests_abandon (s : System σ) (d : ClientId) :
    (s.abandon d).requests c = s.requests c := by
  unfold abandon
  split
  · rfl
  · split
    · exact requests_settleAll s d _
    · rfl

theorem requests_offer (s : System σ) (d : ClientId) (p : PacketId) (r : Reaction σ) :
    (s.offer d p r).requests c = s.requests c ++ if d = c then [.submit p] else [] := by
  have logged := requests_log (c := c) s (.offered d p)
  refine (requests_settleAll _ d r.settlements).trans (logged.trans ?_)
  by_cases hd : d = c <;> simp [Entry.request?, hd]

section

variable [Engine σ]

theorem requests_submit (s : System σ) (d : ClientId) (p : PacketId) :
    (s.submit d p).2.requests c =
      s.requests c ++
        if d = c ∧ (s.submit d p).1 ≠ .value (.error .closed) then [.submit p] else [] := by
  have hs := submission s d p
  generalize s.submit d p = out at hs
  cases hs with
  | closed => simp
  | accepted => simpa using requests_offer s d p _
  | handedBack => simpa using requests_offer s d p _
  | panicked => simpa using (requests_settle _ d _ _).trans (requests_offer s d p _)

theorem requests_tearDown (s : System σ) (d : ClientId) (engine : σ) :
    (s.tearDown d engine).2.requests c = s.requests c ++ if d = c then [.shutdown] else [] := by
  have logged := requests_log (c := c) s (.released d)
  refine (requests_abandon _ d).trans ((requests_settleAll _ d _).trans (logged.trans ?_))
  by_cases hd : d = c <;> simp [Entry.request?, hd]

theorem requests_deinit (s : System σ) (d : ClientId) :
    (s.deinit d).2.requests c =
      s.requests c ++ if d = c ∧ s.engine? c ≠ none then [.shutdown] else [] := by
  cases he : s.engine? d with
  | none =>
    rw [deinit_of_closed he]
    by_cases hd : d = c <;> simp_all
  | some engine =>
    rw [deinit_of_open he]
    refine (requests_tearDown (s.withoutEngine d) d engine).trans ?_
    by_cases hd : d = c
    · subst hd
      simp [he]
    · simp [hd]

end

end System

end Courier
