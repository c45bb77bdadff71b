import Courier.Proofs.Forward.Exchanges
import Courier.Proofs.Forward.Turns
import Courier.Proofs.Lists

/-!
# Attribution of replies

A packet that was completed from a reply was completed from its own: the reply in the
position that the packet had among those exchanged on the connection. A reply that comes
too late finds nobody, since the connection it comes on is never used again, and what a
broken exchange has left in the buffer is never delivered.
-/

namespace Courier.Forward

variable {config : Config} {cluster : Cluster} {endpoints : List Address.Endpoint}
  {moves : List Move} {history : List Exchange} {done : List Settlement} {w : Worker}
  {turn : Worker.Turn}

-- ---------------------------------------------------------------------------
-- Whose request is under way
-- ---------------------------------------------------------------------------

namespace Worker

/-- An exchange under way after the turn was so before, for the same packet and with the same
frame. What a frame is made from stays as it is. -/
structure Continues (w : Worker) (turn : Turn) : Prop where
  cluster : turn.1.cluster = w.cluster
  limit : turn.1.limit = w.limit
  exchanging : turn.1.phase = .exchanging place frame stage →
    ∃ stage, w.phase = .exchanging place frame stage

theorem Continues.frame? (h : Continues w turn) (p : Packet) : turn.1.frame? p = w.frame? p := by
  simp only [Worker.frame?, h.cluster, h.limit]

theorem Continues.stay {w' : Worker} (cluster : w'.cluster = w.cluster)
    (limit : w'.limit = w.limit) (phase : w'.phase = w.phase) : Continues w (w', []) where
  cluster := cluster
  limit := limit
  exchanging h := ⟨_, phase.symm.trans h⟩

theorem EnterOrSettle.continues (h : w.EnterOrSettle place frame turn)
    (phase : w.phase = .exchanging place frame stage) : Continues w turn := by
  cases h with
  | enter =>
    refine ⟨rfl, rfl, ?_⟩
    rintro _ _ _ ⟨⟩
    exact ⟨stage, phase⟩
  | settle => exact ⟨rfl, rfl, nofun⟩

theorem continues_hear (event : Event) : Continues w (w.hear event) := by
  rcases hear_cases w event with ⟨place, frame, stage, phase, enterOrSettle⟩ | ⟨connection, hear_eq⟩
  · exact enterOrSettle.continues phase
  · rw [hear_eq]
    exact .stay rfl rfl rfl

theorem continues_receive (goes : w.receive = some w') : Continues w (w', []) := by
  unfold receive at goes
  split at goes
  · obtain rfl := Option.some.inj goes
    exact ⟨rfl, rfl, nofun⟩
  · split at goes
    · cases goes
    · obtain rfl := Option.some.inj goes
      exact ⟨rfl, rfl, nofun⟩

/-- An exchange is begun for the packet in hand alone. -/
theorem after_exchanging {move : Move} (goes : w.after move = some turn) :
    Continues w turn ∨ ∃ place h p frame, move = .inspect h ∧ w.phase = .holding place ∧
      h.packet? place = some p ∧ w.frame? p = .ok frame ∧
      turn = (w.enter place frame .starting, []) := by
  cases moveStep_of_after goes with
  | @inspect h place phase =>
    unfold inspect
    split
    · exact .inl ⟨rfl, rfl, nofun⟩
    · split
      · exact .inl ⟨rfl, rfl, nofun⟩
      · next p hp =>
        split
        · exact .inl ⟨rfl, rfl, nofun⟩
        · next frame hframe => exact .inr ⟨place, h, p, frame, rfl, phase, hp, hframe, rfl⟩
  | receive phase received => exact .inl (continues_receive received)
  | progress phase progressed => exact .inl ((enterOrSettle_progress progressed).continues phase)
  | cut phase => exact .inl ⟨rfl, rfl, nofun⟩
  | hear => exact .inl (continues_hear _)
  | push | request | notify | hangUp => exact .inl (.stay rfl rfl rfl)

/-- The packet in the place was looked at when it was in hand, and the frame is made from what it
was then. -/
def Asked (w : Worker) (moves : List Move) (place : Place) (frame : Bytes) : Prop :=
  ∃ before h later history done v p, moves = before ++ .inspect h :: later ∧
    Run w before history done v ∧ v.phase = .holding place ∧
    h.packet? place = some p ∧ w.frame? p = .ok frame

theorem Asked.snoc (h : w.Asked moves place frame) (move : Move) :
    w.Asked (moves ++ [move]) place frame := by
  obtain ⟨before, hold, later, history, done, v, p, rfl, h⟩ := h
  exact ⟨before, hold, later ++ [move], history, done, v, p, by simp, h⟩

theorem Run.frame? {v : Worker} (run : Run w moves history done v) (p : Packet) :
    v.frame? p = w.frame? p := by
  induction run with
  | nil => rfl
  | snoc run fresh goes ih =>
    rw [← ih]
    rcases after_exchanging goes with hsame | ⟨place, h, p, frame, -, -, -, -, rfl⟩
    · exact hsame.frame? _
    · rfl

/-- What is sent for a packet was made from that packet. -/
theorem Run.asked {v : Worker} (run : Run w moves history done v) (idle : w.phase = .idle) :
    (∀ {place frame stage}, v.phase = .exchanging place frame stage → w.Asked moves place frame) ∧
    ∀ x ∈ history, w.Asked moves x.place x.frame := by
  induction run with
  | nil => exact ⟨fun h => (by cases idle.symm.trans h), by simp⟩
  | @snoc moves history done v move turn run fresh goes ih =>
    obtain ⟨hphase, hhistory⟩ := ih
    constructor
    · intro place frame stage h
      rcases after_exchanging goes with hsame | ⟨held, hold, p, made, rfl, hheld, hp, hmade, rfl⟩
      · obtain ⟨stage, hbefore⟩ := hsame.exchanging h
        exact (hphase hbefore).snoc move
      · obtain ⟨rfl, rfl, -⟩ := Phase.exchanging.inj h
        rw [run.frame?] at hmade
        exact ⟨moves, hold, [], history, done, v, p, rfl, run, hheld, hp, hmade⟩
    · intro x hx
      rcases List.mem_append.mp hx with hx | hx
      · exact (hhistory x hx).snoc move
      · obtain ⟨stage, h⟩ := phase_of_exchange? (by simpa using hx)
        exact (hphase h).snoc move

-- ---------------------------------------------------------------------------
-- Whole runs
-- ---------------------------------------------------------------------------

def links (w : Worker) : List Connection :=
  (match w.phase with
    | .exchanging _ _ stage => stage.link?.toList
    | _ => []) ++ w.connection.toList

/-- A connection that can still be used has seen no exchange fail. -/
theorem kept_of_tracked {limit : UInt32} (tracked : Tracked limit history w)
    (hlink : link ∈ w.links) :
    ∀ x ∈ history, x.link.channel = link.channel → x.kept = true := by
  cases phase : w.phase with
  | exchanging place frame stage =>
    simp only [Tracked, phase] at tracked
    simp only [links, phase, List.mem_append, Option.mem_toList] at hlink
    cases stage with
    | starting =>
      have hconnection : link ∈ w.connection := by simpa [Stage.link?] using hlink
      exact (tracked.2 link hconnection).kept
    | dialling => simp [Stage.link?, tracked.2] at hlink
    | sending =>
      obtain ⟨-, hnone, _, -, linked⟩ := tracked
      obtain rfl : _ = link := by simpa [Stage.link?, hnone] using hlink
      exact linked.kept
    | lead =>
      obtain ⟨-, hnone, -, linked⟩ := tracked
      obtain rfl : _ = link := by simpa [Stage.link?, hnone] using hlink
      exact linked.kept
    | body =>
      obtain ⟨-, hnone, -, linked⟩ := tracked
      obtain rfl : _ = link := by simpa [Stage.link?, hnone] using hlink
      exact linked.kept
  | _ =>
    simp only [Tracked, phase] at tracked
    exact (tracked.2 link (by simpa [links, phase] using hlink)).kept

theorem Run.tracked (run : Run (start config cluster endpoints) moves history done w) :
    Tracked config.maxPayload history w := by
  induction run with
  | nil => exact ⟨rfl, by simp [start]⟩
  | snoc run fresh goes ih => exact (Keeps.after ih fresh goes).tracked

theorem Run.lawful (run : Run (start config cluster endpoints) moves history done w)
    (split : history = past ++ x :: future) : Lawful config.maxPayload past x := by
  induction run generalizing past x future with
  | nil => simp at split
  | snoc run fresh goes ih =>
    rcases split_append_toList split with ⟨rest, rfl, -⟩ | ⟨rfl, hx, -⟩
    · exact ih rfl
    · exact (Keeps.after run.tracked fresh goes).lawful x hx

theorem Run.answered (run : Run (start config cluster endpoints) moves history done w) :
    ∀ s ∈ done, (∃ x ∈ history, x.kept = true ∧ s ∈ x.settlements) ∨ Unanswered s := by
  induction run with
  | nil => simp
  | snoc run fresh goes ih =>
    intro s hs
    rcases List.mem_append.mp hs with hs | hs
    · exact (ih s hs).imp_left fun ⟨x, hx, h⟩ => ⟨x, List.mem_append_left _ hx, h⟩
    · exact ((Keeps.after run.tracked fresh goes).settled s hs).imp_left
        fun ⟨x, hx, h⟩ => ⟨x, List.mem_append_right _ (by simpa using hx), h⟩

/-- What holds of an exchange, with those before it, those after it, and the worker at the end. -/
structure Attributed (limit : UInt32) (first : Worker) (moves : List Move)
    (past : List Exchange) (x : Exchange) (future : List Exchange) (last : Worker) : Prop where
  unbroken : ∀ y ∈ past, y.link.channel = x.link.channel → y.kept = true
  asked : first.Asked moves x.place x.frame
  succeeded : x.kept = true → Succeeded limit past x
  failed : x.kept = false → ∃ outcome, outcome ≠ .ok ∧
    x.settlements = [⟨x.place, .complete outcome []⟩]
  /-- After a failure nobody writes to the connection or reads from it. -/
  abandoned : x.kept = false → (∀ y ∈ future, y.link.channel ≠ x.link.channel) ∧
    ∀ link ∈ last.links, link.channel ≠ x.link.channel

/-- In any run, each exchange is answered by the reply in its own position on its connection, or
not at all and its connection is not used any more. No packet gets a result in any other way. -/
theorem Run.attribution (run : Run (start config cluster endpoints) moves history done w) :
    (∀ past x future, history = past ++ x :: future →
      Attributed config.maxPayload (start config cluster endpoints) moves past x future w) ∧
    ∀ s ∈ done, (∃ x ∈ history, x.kept = true ∧ s ∈ x.settlements) ∨ Unanswered s := by
  refine ⟨?_, run.answered⟩
  intro past x future hsplit
  have hx : x ∈ history := hsplit ▸ List.mem_append_right _ List.mem_cons_self
  have hlawful := run.lawful hsplit
  refine ⟨hlawful.kept, (run.asked rfl).2 x hx, hlawful.succeeded, hlawful.failed, ?_⟩
  intro hlost
  constructor
  · -- a later exchange would have found that this one was kept
    intro y hy hsame
    obtain ⟨between, later, rfl⟩ := List.append_of_mem hy
    have hlater : history = (past ++ x :: between) ++ y :: later := by simp [hsplit]
    have hkept := (run.lawful hlater).kept x (by simp) hsame.symm
    exact Bool.noConfusion (hlost.symm.trans hkept)
  · intro link hlink hsame
    have hkept := kept_of_tracked run.tracked hlink x hx hsame.symm
    exact Bool.noConfusion (hlost.symm.trans hkept)

def twoPackets : Hold := [some { data := some [1, 2, 3], dataSize := 3 }, some {}]

def dialled : List Move := [.push 0, .push 1, .receive, .inspect twoPackets, .progress]

/-- The first packet is answered, and the connection breaks under the second one. -/
def answeredOnce : List Move :=
  [.hear (.took 26), .progress, .hear (.arrived [3, 0, 0, 0, 0, 9, 8]), .progress, .progress,
    .progress, .progress, .receive, .inspect twoPackets, .progress, .hear .broken]

theorem attribution_answeredOnce : ∃ history done last,
    Run (start {} .zero [.v4 .loopback 3001])
      (dialled ++ [.hear (.accepted 0)] ++ answeredOnce) history done last ∧
    history.map (·.kept) = [true, false] ∧
    done = [⟨0, .complete .ok [9, 8]⟩, ⟨1, .complete .engineFailure []⟩] ∧
    (∀ past x future, history = past ++ x :: future →
      Attributed ({} : Config).maxPayload (start {} .zero [.v4 .loopback 3001])
        (dialled ++ [.hear (.accepted 0)] ++ answeredOnce) past x future last) ∧
    ∀ s ∈ done, (∃ x ∈ history, x.kept = true ∧ s ∈ x.settlements) ∨ Unanswered s := by
  have hdialled : Run (start {} .zero [.v4 .loopback 3001]) dialled _ _ _ :=
    Run.nil.follow (by simp) rfl
  have hopen : Run _ (dialled ++ [.hear (.accepted 0)]) _ _ _ :=
    hdialled.snoc (fun _ _ x hx => absurd hx (List.not_mem_nil (a := x))) rfl
  have hrun : Run _ (dialled ++ [.hear (.accepted 0)] ++ answeredOnce) _ _ _ :=
    hopen.follow (by simp [answeredOnce]) rfl
  exact ⟨_, _, _, hrun, rfl, rfl, hrun.attribution⟩

end Worker

end Courier.Forward
