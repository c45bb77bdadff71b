import Courier.Proofs.Limits

/-!
# A packet left out

A packet that is refused makes no difference to the others. Of any run there is one without it, in
which the packets behind it have moved up by one place.
-/

namespace Courier

namespace Forward

def spared? (gap place : Place) : Option Place :=
  if place = gap then none else some (if place < gap then place else place - 1)

end Forward

def Settlement.spare (gap : Place) (x : Settlement) : Option Settlement :=
  (Forward.spared? gap x.place).map fun place => { x with place }

namespace Forward

variable {gap place next : Place} {frame : Bytes} {stage : Stage}

@[simp] theorem spared?_gap (gap : Place) : spared? gap gap = none :=
  if_pos rfl

theorem exists_spared (ne : place ≠ gap) : ∃ next, spared? gap place = some next :=
  ⟨_, if_neg ne⟩

def Phase.without (gap : Place) : Phase → Phase
  | .holding place => (spared? gap place).elim .idle .holding
  | .exchanging place frame stage => (spared? gap place).elim .idle (.exchanging · frame stage)
  | phase => phase

def Call.spare (gap : Place) (c : Call) : Option Call :=
  (spared? gap c.place).map fun place => { c with place }

def Observation.moveTo (next : Place) : Observation → Observation
  | judged _ refusal => .judged next refusal
  | connecting _ => .connecting next
  | refused _ endpoint => .refused next endpoint
  | accepted _ endpoint channel => .accepted next endpoint channel
  | spoiled _ endpoint => .spoiled next endpoint
  | reused _ channel => .reused next channel
  | wrote write => .wrote { write with place := next }
  | ended settlement reply => .ended { settlement with place := next } reply

def Observation.spare (gap : Place) (x : Observation) : Option Observation :=
  (spared? gap x.place).map (moveTo · x)

namespace Worker

def without (gap : Place) (w : Worker) : Worker :=
  { w with queue := w.queue.filterMap (spared? gap), phase := w.phase.without gap }

def Turn.without (gap : Place) (turn : Turn) : Turn :=
  (turn.1.without gap, turn.2.filterMap (Settlement.spare gap))

/-- The packet in the gap is not exchanged. -/
def Apart (gap : Place) (w : Worker) : Prop :=
  ∀ frame stage, w.phase ≠ .exchanging gap frame stage

variable {w v : Worker} {turn : Turn} {h : Hold} {op : WorkerOp}

theorem Apart.exchanging (apart : w.Apart gap) (phase : w.phase = .exchanging place frame stage) :
    ∃ next, spared? gap place = some next ∧
      (w.without gap).phase = .exchanging next frame stage := by
  have ne : place ≠ gap := fun same => apart frame stage (same ▸ phase)
  obtain ⟨next, spared⟩ := exists_spared ne
  exact ⟨next, spared, by simp [without, Phase.without, phase, spared]⟩

theorem without_enter (w : Worker) (spared : spared? gap place = some next) :
    (w.enter place frame stage).without gap = (w.without gap).enter next frame stage := by
  simp [without, enter, Phase.without, spared]

theorem without_settle (w : Worker) (spared : spared? gap place = some next) (outcome : Outcome)
    (result : Bytes) : Turn.without gap (w.settle place outcome result) =
      (w.without gap).settle next outcome result := by
  simp [Turn.without, settle, without, Phase.without, Settlement.spare, spared]

theorem conclude_without (w : Worker) (spared : spared? gap place = some next) (link : Connection) :
    (w.without gap).conclude next link = Turn.without gap (w.conclude place link) := by
  have buffer : (w.without gap).buffer = w.buffer := rfl
  have limit : (w.without gap).limit = w.limit := rfl
  simp only [conclude, buffer, limit]
  cases Frame.Reply.decode w.buffer w.limit with
  | error => exact (without_settle { w with connection := some link } spared _ _).symm
  | ok => exact (without_settle { w with connection := some link } spared _ _).symm

theorem progress_without (w : Worker) (spared : spared? gap place = some next) :
    (w.without gap).progress next frame stage =
      (w.progress place frame stage).map (Turn.without gap) := by
  have enter (v : Worker) (stage : Stage) : Turn.without gap (v.enter place frame stage, []) =
      ((v.without gap).enter next frame stage, []) :=
    congrArg (·, []) (without_enter v spared)
  have fail : Turn.without gap (w.fail place) = (w.without gap).fail next :=
    without_settle w spared _ _
  cases stage with
  | starting =>
    have connection : (w.without gap).connection = w.connection := rfl
    simp only [progress, connection]
    cases w.connection <;> simp only [Option.map_some, enter] <;> rfl
  | dialling untried =>
    cases untried with
    | nil => exact congrArg some fail.symm
    | cons => rfl
  | sending link unsent =>
    cases unsent with
    | nil => exact congrArg some (enter w _).symm
    | cons => rfl
  | lead link got =>
    have limit : (w.without gap).limit = w.limit := rfl
    simp only [progress, limit]
    split
    · cases Frame.bodyLength got Frame.Reply.headerSize w.limit with
      | error => exact congrArg some fail.symm
      | ok => exact congrArg some (enter { w with buffer := got } _).symm
    · split
      · split
        · exact congrArg some fail.symm
        · rfl
      · exact congrArg some (enter _ _).symm
  | body link missing =>
    simp only [progress]
    split
    · exact congrArg some (conclude_without w spared link)
    · split
      · split
        · exact congrArg some fail.symm
        · rfl
      · exact congrArg some
          (enter { w with buffer := w.buffer ++ (link.read missing).1 } _).symm

theorem mapLink_without (apart : w.Apart gap) (f : Connection → Connection) :
    (w.without gap).mapLink f = (w.mapLink f).without gap := by
  cases phase : w.phase with
  | exchanging place frame stage =>
    have ne : place ≠ gap := fun same => apart frame stage (same ▸ phase)
    obtain ⟨next, spared⟩ := exists_spared ne
    cases stage <;> simp [mapLink, without, Phase.without, enter, phase, spared]
  | holding place =>
    cases spared : spared? gap place <;>
      simp [mapLink, without, Phase.without, phase, spared]
  | _ => simp [mapLink, without, Phase.without, phase]

theorem hear_without (apart : w.Apart gap) (event : Event) :
    (w.without gap).hear event = Turn.without gap (w.hear event) := by
  have silent {w : Worker} (f : Connection → Connection) (apart : w.Apart gap) :
      ((w.without gap).mapLink f, []) = Turn.without gap (w.mapLink f, []) :=
    congrArg (·, []) (mapLink_without apart f)
  cases phase : w.phase with
  | exchanging place frame stage =>
    obtain ⟨next, spared, now⟩ := apart.exchanging phase
    have fail : (w.without gap).fail next = Turn.without gap (w.fail place) :=
      (without_settle w spared _ _).symm
    have enter (stage : Stage) : ((w.without gap).enter next frame stage, []) =
        Turn.without gap (w.enter place frame stage, []) :=
      congrArg (·, []) (without_enter w spared).symm
    cases event with
    | arrived | ended => exact silent _ apart
    | _ =>
      cases stage with
      | dialling untried =>
        cases untried <;> simp only [hear, phase, now, fail, enter] <;> rfl
      | _ => simp only [hear, phase, now, fail, enter] <;> rfl
  | holding place =>
    cases event with
    | arrived | ended => exact silent _ apart
    | _ =>
      cases spared : spared? gap place with
      | none =>
        have now : (w.without gap).phase = .idle := by
          simp [without, Phase.without, phase, spared]
        simp only [hear, phase, now]
        rfl
      | some next =>
        have now : (w.without gap).phase = .holding next := by
          simp [without, Phase.without, phase, spared]
        simp only [hear, phase, now]
        rfl
  | _ =>
    have now : (w.without gap).phase = w.phase := by simp [without, Phase.without, phase]
    cases event with
    | arrived | ended => exact silent _ apart
    | _ =>
      simp only [hear, phase, now]
      rfl

theorem receive_without (gap : Place) (phase : w.phase = .idle) (goes : w.receive = some v) :
    v.without gap = w.without gap ∨ (w.without gap).receive = some (v.without gap) := by
  unfold receive at goes
  split at goes
  · next place queue hqueue =>
    cases goes
    cases spared : spared? gap place with
    | none => exact .inl (by simp [without, Phase.without, hqueue, phase, spared])
    | some next => exact .inr (by simp [without, Phase.without, receive, hqueue, spared])
  · next hqueue =>
    split at goes
    · cases goes
    · next hungUp =>
      cases goes
      exact .inr (by simp [without, Phase.without, receive, hqueue, hungUp])

theorem packet?_eraseIdx (h : Hold) (spared : spared? gap place = some next) :
    Hold.packet? (h.eraseIdx gap) next = h.packet? place := by
  unfold spared? at spared
  split at spared
  · cases spared
  · next ne =>
    cases spared
    unfold Hold.packet?
    split
    · next before => rw [List.getElem?_eraseIdx_of_lt before]
    · next behind =>
      have later : gap < place := Nat.lt_of_le_of_ne (Nat.le_of_not_lt behind) (Ne.symm ne)
      rw [List.getElem?_eraseIdx_of_ge (Nat.le_sub_one_of_lt later),
        Nat.sub_add_cancel (Nat.one_le_of_lt later)]

theorem inspect_without (w : Worker) (h : Hold) (spared : spared? gap place = some next) :
    (w.without gap).inspect (h.eraseIdx gap) next = Turn.without gap (w.inspect h place) := by
  have settle (outcome : Outcome) : (w.without gap).settle next outcome [] =
      Turn.without gap (w.settle place outcome []) :=
    (without_settle w spared outcome []).symm
  simp only [inspect, packet?_eraseIdx h spared]
  change (if w.requested then _ else _) = _
  split
  · exact settle _
  · split
    · rfl
    · next p _ =>
      have frame : (w.without gap).frame? p = w.frame? p := rfl
      rw [frame]
      cases w.frame? p with
      | error => exact settle _
      | ok => exact congrArg (·, []) (without_enter w spared).symm

theorem inspect_gap (phase : w.phase = .holding gap) (apart : Apart gap (w.inspect h gap).1) :
    Turn.without gap (w.inspect h gap) = (w.without gap, []) := by
  have settle (outcome : Outcome) :
      Turn.without gap (w.settle gap outcome []) = (w.without gap, []) := by
    simp [Turn.without, Worker.settle, without, Phase.without, Settlement.spare, phase]
  unfold inspect at apart ⊢
  split at apart
  · next asked =>
    rw [if_pos asked]
    exact settle _
  · next unasked =>
    rw [if_neg unasked]
    split at apart
    · simp [Turn.without, without, Phase.without, phase]
    · split at apart
      · exact settle _
      · exact absurd rfl (apart _ _)

/-- The worker goes on for another packet as before; for the one in the gap it misses nothing. -/
theorem after_without (apart : w.Apart gap) (goes : w.after (op.move h) = some turn)
    (apart' : turn.1.Apart gap) :
    Turn.without gap turn = (w.without gap, []) ∧ (∀ event, op ≠ .hear event) ∧
        (w.without gap).observation? (h.eraseIdx gap) op = none ∨
      (w.without gap).after (op.move (h.eraseIdx gap)) = some (Turn.without gap turn) := by
  cases op with
  | receive =>
    cases moveStep_of_after goes with
    | receive phase received =>
      have now : (w.without gap).phase = .idle := by simp [without, Phase.without, phase]
      rcases receive_without gap phase received with same | received
      · exact .inl ⟨congrArg (·, []) same, (by simp), rfl⟩
      · refine .inr ?_
        simp only [WorkerOp.move, after, now, received]
        rfl
  | inspect =>
    cases moveStep_of_after goes with
    | @inspect _ place phase =>
      -- without the packet in the gap the worker is idle all the while
      by_cases here : place = gap
      · subst here
        have now : (w.without place).phase = .idle := by simp [without, Phase.without, phase]
        exact .inl ⟨inspect_gap phase apart', (by simp), by simp only [observation?, now]⟩
      · obtain ⟨next, spared⟩ := exists_spared here
        have now : (w.without gap).phase = .holding next := by
          simp [without, Phase.without, phase, spared]
        refine .inr ?_
        simp only [WorkerOp.move, after, now, inspect_without w h spared]
  | progress =>
    cases moveStep_of_after goes with
    | @progress place frame stage _ phase progressed =>
      obtain ⟨next, spared, now⟩ := apart.exchanging phase
      refine .inr ?_
      simp only [WorkerOp.move, after, now, progress_without w spared, progressed, Option.map_some]
  | cut =>
    cases moveStep_of_after goes with
    | @cut place frame stage phase notice =>
      obtain ⟨next, spared, now⟩ := apart.exchanging phase
      have noticed : (w.without gap).permit = true := notice
      refine .inr ?_
      simp only [WorkerOp.move, after, now, noticed, if_true]
      exact congrArg some (without_settle { w with permit := false } spared _ _).symm
  | hear event =>
    cases moveStep_of_after goes with
    | hear => exact .inr (congrArg some (hear_without apart event))

theorem dialled?_without (apart : w.Apart gap) : (w.without gap).dialled? =
    w.dialled?.bind fun (place, endpoint) => (spared? gap place).map (·, endpoint) := by
  cases phase : w.phase with
  | exchanging place frame stage =>
    obtain ⟨next, spared, now⟩ := apart.exchanging phase
    cases stage with
    | dialling untried => cases untried <;> simp [dialled?, phase, now, spared]
    | _ => simp [dialled?, phase, now]
  | holding place =>
    cases spared : spared? gap place <;>
      simp [dialled?, without, Phase.without, phase, spared]
  | _ => simp [dialled?, without, Phase.without, phase]

theorem write?_without (apart : w.Apart gap) (op : WorkerOp) : (w.without gap).write? op =
    (w.write? op).bind fun x => (spared? gap x.place).map fun place => { x with place } := by
  unfold write?
  split
  · cases phase : w.phase with
    | exchanging place frame stage =>
      obtain ⟨next, spared, now⟩ := apart.exchanging phase
      cases stage <;> simp [now, spared]
    | holding place =>
      cases spared : spared? gap place <;> simp [without, Phase.without, phase, spared]
    | _ => simp [without, Phase.without, phase]
  · rfl

theorem observation?_without (apart : w.Apart gap) (h : Hold) (op : WorkerOp) :
    (w.without gap).observation? (h.eraseIdx gap) op =
      (w.observation? h op).bind (Observation.spare gap) := by
  unfold observation?
  split
  · cases phase : w.phase with
    | holding place =>
      have requested : (w.without gap).requested = w.requested := rfl
      rw [requested]
      cases spared : spared? gap place with
      | none =>
        have now : (w.without gap).phase = .idle := by
          simp [without, Phase.without, phase, spared]
        rw [now]
        simp only
        split
        · rfl
        · cases h.packet? place <;> simp [Observation.spare, Observation.place, spared]
      | some next =>
        have now : (w.without gap).phase = .holding next := by
          simp [without, Phase.without, phase, spared]
        rw [now]
        simp only [packet?_eraseIdx h spared]
        split
        · rfl
        · cases h.packet? place with
          | none => rfl
          | some p =>
            simp only [Option.map_some, Option.bind_some, Observation.spare, Observation.place,
              spared, Observation.moveTo]
            rfl
    | exchanging place frame stage =>
      obtain ⟨next, spared, now⟩ := apart.exchanging phase
      simp [now]
    | _ => simp [without, Phase.without, phase]
  · cases phase : w.phase with
    | exchanging place frame stage =>
      obtain ⟨next, spared, now⟩ := apart.exchanging phase
      rw [now]
      cases stage with
      | starting =>
        have connection : (w.without gap).connection = w.connection := rfl
        simp only [connection]
        cases w.connection <;>
          simp [Observation.spare, Observation.place, Observation.moveTo, spared]
      | _ => rfl
    | holding place =>
      cases spared : spared? gap place <;> simp [without, Phase.without, phase, spared]
    | _ => simp [without, Phase.without, phase]
  iterate 3
    rw [dialled?_without apart]
    rcases w.dialled? with _ | ⟨place, endpoint⟩
    · rfl
    · cases spared : spared? gap place <;>
        simp [Observation.spare, Observation.place, Observation.moveTo, spared]
  · rw [write?_without apart]
    rcases w.write? op with _ | write
    · rfl
    · cases spared : spared? gap write.place <;>
        simp [Observation.spare, Observation.place, Observation.moveTo, spared]

theorem outgoing?_eq (w : Worker) (op : WorkerOp) :
    w.outgoing? op = (w.write? op).map fun x => (x.place, x.bytes) := by
  cases op with
  | hear event =>
    cases event with
    | took count =>
      cases phase : w.phase with
      | exchanging place frame stage => cases stage <;> simp [outgoing?, write?, phase]
      | _ => simp [outgoing?, write?, phase]
    | _ => rfl
  | _ => rfl

theorem outgoing?_without (apart : w.Apart gap) (op : WorkerOp) : (w.without gap).outgoing? op =
    (w.outgoing? op).bind fun (place, bytes) => (spared? gap place).map (·, bytes) := by
  rw [outgoing?_eq, write?_without apart, outgoing?_eq]
  rcases w.write? op with _ | write
  · rfl
  · cases spared : spared? gap write.place <;> simp [spared]

theorem reply?_without (apart : w.Apart gap) (op : WorkerOp) :
    (w.without gap).reply? op = w.reply? op := by
  unfold reply?
  split
  · cases phase : w.phase with
    | exchanging place frame stage =>
      obtain ⟨next, spared, now⟩ := apart.exchanging phase
      rw [now]
      cases stage with
      | body link missing => cases missing <;> rfl
      | _ => rfl
    | holding place =>
      cases spared : spared? gap place <;> simp [without, Phase.without, phase, spared]
    | _ => simp [without, Phase.without, phase]
  · rfl

end Worker

namespace HostedWorker

def without (gap : Place) (s : HostedWorker) : HostedWorker where
  worker := s.worker.without gap
  host := s.host
  hold := s.hold.eraseIdx gap
  owed := s.owed.filterMap (Call.spare gap)
  calls := s.calls.filterMap (Call.spare gap)
  sent := s.sent.filterMap fun (place, bytes) => (spared? gap place).map (·, bytes)

variable {s t : HostedWorker} {act : Act} {op : WorkerOp} {turn : Worker.Turn}

/-- A step for another packet is made as before; one for the packet in the gap is not missed. -/
inductive Spares (gap : Place) (s : HostedWorker) (act : Act) (t : HostedWorker) : Prop
  | made (goes : (s.without gap).after act = some (t.without gap))
      (observations : (s.without gap).observations act =
        (s.observations act).filterMap (Observation.spare gap))
      (other : ∀ p, act = .submit p → s.hold.length ≠ gap)
  | missed (same : t.without gap = s.without gap)
      (observations : (s.observations act).filterMap (Observation.spare gap) = [])
      (unheard : ∀ event, act ≠ .work (.hear event))
      (first : ∀ p, act = .submit p → s.hold.length = gap)

theorem length_eraseIdx (h : Hold) (spared : spared? gap h.length = some next) :
    (h.eraseIdx gap).length = next := by
  unfold spared? at spared
  split at spared
  · cases spared
  · next ne =>
    cases spared
    rw [List.length_eraseIdx]
    rcases Nat.lt_or_ge gap h.length with lt | ge
    · rw [if_pos lt, if_neg (Nat.not_lt_of_lt lt)]
    · have lt : h.length < gap := Nat.lt_of_le_of_ne ge ne
      rw [if_neg (Nat.not_lt_of_le ge), if_pos lt]

theorem eraseIdx_set (h : Hold) (spared : spared? gap place = some next) :
    (h.set place none).eraseIdx gap = (h.eraseIdx gap).set next none := by
  unfold spared? at spared
  split at spared
  · cases spared
  · next ne =>
    cases spared
    split
    · next before => exact List.eraseIdx_set_gt before
    · next behind =>
      exact List.eraseIdx_set_lt (Nat.lt_of_le_of_ne (Nat.le_of_not_lt behind) (Ne.symm ne))

theorem spares_submit (host : s.host = .serving) (p : Packet) :
    s.Spares gap (.submit p) (s.submit p) := by
  by_cases last : s.hold.length = gap
  · refine .missed ?_ rfl (by simp) fun _ _ => last
    subst last
    simp [without, submit, Worker.without, Worker.push, eraseIdx_last]
  · obtain ⟨next, spared⟩ := exists_spared last
    refine .made ?_ rfl fun _ _ => last
    have host' : (s.without gap).host = .serving := host
    simp only [after, host', if_true]
    simp [without, submit, Worker.without, Worker.push, eraseIdx_snoc _ _ last,
      length_eraseIdx _ spared, spared]

theorem spares_call (first : s.owed = c :: rest) : s.Spares gap .call (s.tell c rest) := by
  by_cases here : c.place = gap
  · subst here
    have silent : c.spare c.place = none := by simp [Call.spare]
    refine .missed ?_ rfl (by simp) (by simp)
    simp [without, tell, first, List.filterMap_cons_none silent, List.eraseIdx_set_eq]
  · obtain ⟨next, spared⟩ := exists_spared here
    have other : c.spare gap = some { c with place := next } := by simp [Call.spare, spared]
    have owed :
        (s.without gap).owed = { c with place := next } :: rest.filterMap (Call.spare gap) := by
      simp only [without, first]
      exact List.filterMap_cons_some other
    refine .made ?_ rfl (by simp)
    simp only [after, owed]
    simp [without, tell, other, eraseIdx_set _ spared]

theorem spare_of (reply : Option Frame.Reply) (x : Settlement) :
    (Call.of reply x).spare gap = (x.spare gap).map (.of reply) := by
  simp only [Call.spare, Settlement.spare, Call.of, Option.map_map]
  rfl

theorem spare_ended (reply : Option Frame.Reply) (x : Settlement) :
    Observation.spare gap (.ended x reply) = (x.spare gap).map (Observation.ended · reply) := by
  simp only [Observation.spare, Settlement.spare, Observation.place, Option.map_map]
  rfl

theorem without_proceed (apart : s.worker.Apart gap) (op : WorkerOp) (turn : Worker.Turn) :
    (s.proceed op turn).without gap =
      (s.without gap).proceed op (Worker.Turn.without gap turn) := by
  have owed (reply : Option Frame.Reply) :
      (turn.2.map (Call.of reply)).filterMap (Call.spare gap) =
        (turn.2.filterMap (Settlement.spare gap)).map (.of reply) := by
    rw [List.filterMap_map, List.map_filterMap]
    exact List.filterMap_congr fun x _ => spare_of reply x
  have worker : (s.without gap).worker = s.worker.without gap := rfl
  simp only [proceed, worker, Worker.reply?_without apart, Worker.outgoing?_without apart]
  simp only [without, Worker.Turn.without, List.filterMap_append, owed, filterMap_toList]

theorem spare_observations (apart : s.worker.Apart gap)
    (goes : s.worker.after (op.move s.hold) = some turn) :
    (s.observations (.work op)).filterMap (Observation.spare gap) =
      ((s.worker.without gap).observation? (s.hold.eraseIdx gap) op).toList ++
        (Worker.Turn.without gap turn).2.map
          (Observation.ended · ((s.worker.without gap).reply? op)) := by
  rw [observations_work goes, List.filterMap_append, filterMap_toList,
    Worker.observation?_without apart, Worker.reply?_without apart, Worker.Turn.without,
    List.filterMap_map, List.map_filterMap]
  exact congrArg _ (List.filterMap_congr fun x _ => spare_ended _ x)

theorem spares_work (apart : s.worker.Apart gap) (may : s.mayDo op = true)
    (goes : s.worker.after (op.move s.hold) = some turn) (apart' : turn.1.Apart gap) :
    s.Spares gap (.work op) (s.proceed op turn) := by
  have observations := spare_observations apart goes
  rcases Worker.after_without apart goes apart' with ⟨same, unheard, unseen⟩ | goes'
  · -- the step was for the packet in the gap
    rw [unseen, same] at observations
    have silent : s.worker.outgoing? op = none := by
      cases op with
      | hear event => exact absurd rfl (unheard event)
      | _ => rfl
    refine .missed ?_ observations ?_ (by simp)
    · rw [without_proceed apart, same]
      have silent' : (s.without gap).worker.outgoing? op = none := by
        change (s.worker.without gap).outgoing? op = none
        rw [Worker.outgoing?_without apart, silent]
        rfl
      simp only [proceed, silent', List.map_nil, Option.toList_none, List.append_nil]
      rfl
    · rintro event ⟨⟩
      exact unheard event rfl
  · have may' : (s.without gap).mayDo op = true := by
      cases op with
      | hear => rfl
      | _ =>
        have owed : s.owed = [] := List.isEmpty_iff.mp may
        simp [mayDo, without, owed]
    have goes' : (s.without gap).worker.after (op.move (s.without gap).hold) = _ := goes'
    refine .made ?_ ?_ (by simp)
    · simp only [after, may', if_true, goes', Option.map_some, without_proceed apart]
    · rw [observations, observations_work goes']
      rfl

/-- No step makes a difference to the packets beside the gap. -/
theorem spares_of_after (goes : s.after act = some t) (apart : s.worker.Apart gap)
    (apart' : t.worker.Apart gap) : s.Spares gap act t := by
  have host {host : Host} (h : s.host = host) : (s.without gap).host = host := h
  cases act with
  | submit p =>
    obtain ⟨serving, rfl⟩ := by simpa [after] using goes
    exact spares_submit serving p
  | request =>
    obtain ⟨serving, rfl⟩ := by simpa [after] using goes
    exact .made (if_pos (host serving)) rfl (by simp)
  | notify =>
    obtain ⟨requested, rfl⟩ := by simpa [after] using goes
    exact .made (if_pos (host requested)) rfl (by simp)
  | hangUp =>
    obtain ⟨notified, rfl⟩ := by simpa [after] using goes
    exact .made (if_pos (host notified)) rfl (by simp)
  | join =>
    obtain ⟨⟨hungUp, phase, owed⟩, rfl⟩ := by simpa [after] using goes
    have stopped : (s.without gap).worker.phase = .stopped := by
      simp [without, Worker.without, Phase.without, phase]
    have none : (s.without gap).owed = [] := by simp [without, owed]
    exact .made (if_pos ⟨host hungUp, stopped, none⟩) rfl (by simp)
  | work op =>
    simp only [after, Option.ite_none_right_eq_some, Option.map_eq_some_iff] at goes
    obtain ⟨may, turn, worked, rfl⟩ := goes
    exact spares_work apart may worked apart'
  | call =>
    simp only [after] at goes
    split at goes
    · cases goes
    · next first =>
      cases goes
      exact spares_call first

end HostedWorker

-- ---------------------------------------------------------------------------
-- Runs
-- ---------------------------------------------------------------------------

def Event.channel? : Event → Option Nat
  | accepted channel => some channel
  | _ => none

namespace Act

def event? : Act → Option Event
  | work (.hear event) => some event
  | _ => none

def heard (acts : List Act) : List Event := acts.filterMap event?

theorem channels_eq (acts : List Act) : channels acts = (heard acts).filterMap Event.channel? := by
  rw [channels, heard, List.filterMap_filterMap]
  refine List.filterMap_congr fun act _ => ?_
  cases act with
  | work op =>
    cases op with
    | hear event => cases event <;> rfl
    | _ => rfl
  | _ => rfl

end Act

namespace HostedWorker

variable {s t : HostedWorker} {acts : List Act} {log : List Observation} {limit : UInt32}
  {config : Config} {cluster : Cluster} {endpoints : List Address.Endpoint}

/-- Whatever is in the gap is refused. -/
def Refuses (limit : UInt32) (packets : List Packet) (gap : Place) : Prop :=
  ∀ p, packets[gap]? = some p → p.refusal? limit ≠ none

theorem Refuses.of_append (h : Refuses limit (packets ++ more) gap) :
    Refuses limit packets gap := by
  intro p hp
  have lt : gap < packets.length := (List.getElem?_eq_some_iff.mp hp).1
  exact h p ((List.getElem?_append_left lt).trans hp)

theorem Watched.apart (run : (start config cluster endpoints).Watched acts log s)
    (refuses : Refuses config.maxPayload (Act.packets acts) gap) : s.worker.Apart gap := by
  intro frame stage phase
  obtain ⟨fair, passed⟩ := run.fair
  obtain ⟨p, packet, good⟩ := (fair _ (passed _ _ _ phase)).of_judged
  exact refuses p packet good.symm

/-- The acts of the same run without the packet in the gap. -/
structure Omits (gap : Place) (acts rest : List Act) : Prop where
  sublist : rest.Sublist acts
  packets : Act.packets rest = (Act.packets acts).eraseIdx gap
  heard : Act.heard rest = Act.heard acts

theorem Omits.made (h : Omits gap acts rest)
    (other : ∀ p, act = .submit p → (Act.packets acts).length ≠ gap) :
    Omits gap (acts ++ [act]) (rest ++ [act]) where
  sublist := h.sublist.append (.refl _)
  packets := by
    rw [Act.packets_snoc, h.packets, Act.packets_snoc]
    cases act with
    | submit p => exact (eraseIdx_snoc _ p (other p rfl)).symm
    | _ => simp [Act.packet?]
  heard := by
    have old : rest.filterMap Act.event? = acts.filterMap Act.event? := h.heard
    simp only [Act.heard, List.filterMap_append, old]

theorem Omits.missed (h : Omits gap acts rest) (unheard : ∀ event, act ≠ .work (.hear event))
    (first : ∀ p, act = .submit p → (Act.packets acts).length = gap) :
    Omits gap (acts ++ [act]) rest where
  sublist := h.sublist.trans (List.sublist_append_left _ _)
  packets := by
    rw [Act.packets_snoc, h.packets]
    cases act with
    | submit p =>
      obtain rfl := first p rfl
      exact (eraseIdx_last _ p).symm
    | _ => simp [Act.packet?]
  heard := by
    have silent : act.event? = none := by
      cases act with
      | work op =>
        cases op with
        | hear event => exact absurd rfl (unheard event)
        | _ => rfl
      | _ => rfl
    rw [h.heard]
    simp [Act.heard, silent]

theorem Watched.omits (run : (start config cluster endpoints).Watched acts log s)
    (refuses : Refuses config.maxPayload (Act.packets acts) gap) :
    ∃ rest, Omits gap acts rest ∧ (start config cluster endpoints).Watched rest
      (log.filterMap (Observation.spare gap)) (s.without gap) := by
  induction run with
  | nil => exact ⟨[], ⟨.slnil, rfl, rfl⟩, .nil⟩
  | @snoc acts log t act u run fresh goes ih =>
    have before : Refuses config.maxPayload (Act.packets acts) gap := by
      rw [Act.packets_snoc] at refuses
      exact refuses.of_append
    obtain ⟨rest, omits, run'⟩ := ih before
    have apart' := (run.snoc fresh goes).apart refuses
    obtain ⟨sends, transmitting⟩ := run.transmits.transmitting
    have count := transmitting.fromAccepted.count
    rw [List.filterMap_append]
    cases spares_of_after goes (run.apart before) apart' with
    | made goes' observations other =>
      have fresh' : ∀ channel, act.channel? = some channel → channel ∉ Act.channels rest := by
        rw [Act.channels_eq, omits.heard, ← Act.channels_eq]
        exact fresh
      refine ⟨rest ++ [act], omits.made (count ▸ other), ?_⟩
      rw [← observations]
      exact run'.snoc fresh' goes'
    | missed same observations unheard first =>
      refine ⟨rest, omits.missed unheard (count ▸ first), ?_⟩
      rw [observations, List.append_nil, same]
      exact run'

end HostedWorker

end Forward

end Courier
