import Courier.Frame.Message

/-!
# Frames from a stream

Bytes arrive in chunks and wait in a buffer. After each chunk frames are taken
off the front until one fails; only a frame that is still incomplete lets the
stream go on. A decoder says how many bytes each frame takes up, which is never
none, so taking them off ends.
-/

namespace Courier.Frame

structure Decoder (α : Type) where
  decode : Bytes → Except DecodeError (α × Nat)
  used_pos : ∀ {bytes frame used}, decode bytes = .ok (frame, used) →
    0 < used ∧ used ≤ bytes.length

theorem Request.used_pos {bytes : Bytes} {limit : UInt32} {r : Request} {used : Nat}
    (h : Request.decode bytes limit = .ok (r, used)) : 0 < used ∧ used ≤ bytes.length := by
  unfold Request.decode at h
  cases hs : split bytes Request.headerSize limit with
  | error e => simp [hs, bind, Except.bind] at h
  | ok body =>
    simp only [hs, bind, Except.bind, pure, Except.pure, Except.ok.injEq, Prod.mk.injEq] at h
    exact h.2 ▸ used_pos_of_split hs

theorem Reply.used_pos {bytes : Bytes} {limit : UInt32} {r : Reply} {used : Nat}
    (h : Reply.decode bytes limit = .ok (r, used)) : 0 < used ∧ used ≤ bytes.length := by
  unfold Reply.decode at h
  cases hs : split bytes Reply.headerSize limit with
  | error e => simp [hs, bind, Except.bind] at h
  | ok body =>
    cases hp : Reply.parse body.bytes with
    | error e => simp [hs, hp, bind, Except.bind] at h
    | ok reply =>
      simp only [hs, hp, bind, Except.bind, pure, Except.pure, Except.ok.injEq,
        Prod.mk.injEq] at h
      exact h.2 ▸ used_pos_of_split hs

namespace Decoder

def request (limit : UInt32) : Decoder Request := ⟨(Request.decode · limit), Request.used_pos⟩

def reply (limit : UInt32) : Decoder Reply := ⟨(Reply.decode · limit), Reply.used_pos⟩

/-- What one chunk brought: the frames completed, each with the bytes it took up,
why no further one was, and the bytes kept. -/
structure Intake (α : Type) where
  frames : List (α × Nat)
  stop : DecodeError
  left : Bytes
deriving Repr

variable {α : Type}

/-- Takes frames off the front until one fails. -/
def drain (d : Decoder α) (buffer : Bytes) : Intake α :=
  match h : d.decode buffer with
  | .error e => ⟨[], e, buffer⟩
  | .ok (frame, used) =>
    have shorter : buffer.length - used < buffer.length := by
      have := d.used_pos h
      omega
    let rest := d.drain (buffer.drop used)
    { rest with frames := (frame, used) :: rest.frames }
termination_by buffer.length

def feed (d : Decoder α) (buffer : Bytes) : List Bytes → List (Intake α)
  | [] => []
  | chunk :: chunks =>
    let intake := d.drain (buffer ++ chunk)
    intake :: if intake.stop = .needMore then d.feed intake.left chunks else []

def run (d : Decoder α) (chunks : List Bytes) : List (Intake α) := d.feed [] chunks

end Decoder

end Courier.Frame
