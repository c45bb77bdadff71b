import Courier.Proofs.Forward.Omission
import Courier.Proofs.Forward.Visits

/-!
# Reconnection

The connection that an answered packet leaves is the one that the next packet takes. After any other
exchange the endpoints are dialled again from the first one on. A refused packet has no part in it:
it may as well be left out.
-/

namespace Courier.Forward

namespace Observation

def attempt? : Observation → Option (Address.Endpoint × Option Nat)
  | refused _ endpoint => some (endpoint, none)
  | accepted _ endpoint channel => some (endpoint, some channel)
  | spoiled _ endpoint => some (endpoint, none)
  | _ => none

def bytes? (channel : Nat) : Observation → Option Bytes
  | wrote write => if write.channel == channel then some write.bytes else none
  | _ => none

end Observation

variable {gap place : Place} {frame : Bytes} {log : List Observation}

theorem bytesOn_log (channel : Nat) (log : List Observation) :
    bytesOn channel (log.filterMap Observation.write?) =
      (log.filterMap (Observation.bytes? channel)).flatten := by
  rw [bytesOn, List.filter_filterMap, List.map_filterMap]
  refine congrArg List.flatten (List.filterMap_congr fun x _ => ?_)
  cases x with
  | wrote write =>
    by_cases same : write.channel = channel <;>
      simp [Observation.write?, Observation.bytes?, same]
  | _ => rfl

theorem filterMap_spare {f : Observation → Option β} (blind : ∀ next x, f (x.moveTo next) = f x)
    (only : ∀ x, x.isExchange = false → f x = none)
    (unseen : ∀ x ∈ log, x.place = gap → x.isExchange = false) :
    (log.filterMap (Observation.spare gap)).filterMap f = log.filterMap f := by
  rw [List.filterMap_filterMap]
  refine List.filterMap_congr fun x hx => ?_
  by_cases here : x.place = gap
  · rw [only x (unseen x hx here), Observation.spare, here, spared?_gap]
    rfl
  · obtain ⟨next, spared⟩ := exists_spared here
    simp [Observation.spare, spared, blind]

theorem attempts_spare (unseen : ∀ x ∈ log, x.place = gap → x.isExchange = false) :
    (log.filterMap (Observation.spare gap)).filterMap Observation.attempt? =
      log.filterMap Observation.attempt? := by
  refine filterMap_spare ?_ ?_ unseen
  · intro next x
    cases x <;> rfl
  · intro x other
    cases x <;> first | rfl | cases other

theorem bytesOn_spare (unseen : ∀ x ∈ log, x.place = gap → x.isExchange = false) (channel : Nat) :
    bytesOn channel ((log.filterMap (Observation.spare gap)).filterMap Observation.write?) =
      bytesOn channel (log.filterMap Observation.write?) := by
  rw [bytesOn_log, bytesOn_log]
  refine congrArg List.flatten (filterMap_spare ?_ ?_ unseen)
  · intro next x
    cases x <;> rfl
  · intro x other
    cases x <;> first | rfl | cases other

namespace HostedWorker

variable {s : HostedWorker} {acts : List Act} {config : Config} {cluster : Cluster}
  {endpoints : List Address.Endpoint}

theorem Watched.step_exhausted (run : (start config cluster endpoints).Watched acts log s)
    (serving : s.host = .serving)
    (phase : s.worker.phase = .exchanging place frame (.dialling [])) :
    s.worker.step s.hold = some (s.worker.fail place) := by
  have serves := (run.inService serving).serves
  simp [Worker.step, phase, serves.unnoticed, Worker.progress]

/-- In any run, a connection is sought for a packet exactly if the packet is not refused and none is
kept. Unless the worker was asked to stop, its log is one visit for each packet that has ended, each
with the connection that the one before it has kept, and the beginning of the next visit. When all
endpoints have refused, the packet in hand is ended.

A refused packet has no exchange. Without it the run can be made with the same events, the other
packets end as they did, the same endpoints are tried in the same order, and the peers get the same
bytes. -/
theorem Watched.reconnection (run : (start config cluster endpoints).Watched acts log s) :
    (∀ place held new held',
      Visit endpoints config.maxPayload (Act.packets acts) place held new held' →
      (.connecting place ∈ new ↔
        Admitted config.maxPayload (Act.packets acts) place ∧ held = none)) ∧
    (s.host = .serving → ∃ done held front, log = done ++ front ∧
      s.ended = log.filterMap Observation.call? ∧
      Visits endpoints config.maxPayload (Act.packets acts) s.ended.length done held ∧
      (front = [] → s.worker.connection.map (·.channel) = held) ∧
      (front = [] ∨ ∃ rest held', Visit endpoints config.maxPayload (Act.packets acts)
        s.ended.length held (front ++ rest) held') ∧
      (front = .judged s.ended.length none :: .connecting s.ended.length ::
          endpoints.map (.refused s.ended.length) →
        s.worker.step s.hold = some (s.worker.fail s.ended.length))) ∧
    ∀ gap p outcome, (Act.packets acts)[gap]? = some p →
      p.refusal? config.maxPayload = some outcome →
      (∀ x ∈ log, x.place = gap → x.isExchange = false) ∧
      ∃ rest log' t, Omits gap acts rest ∧ (start config cluster endpoints).Watched rest log' t ∧
        log' = log.filterMap (Observation.spare gap) ∧
        t.calls = s.calls.filterMap (Call.spare gap) ∧
        log'.filterMap Observation.attempt? = log.filterMap Observation.attempt? ∧
        ∀ channel, bytesOn channel (log'.filterMap Observation.write?) =
          bytesOn channel (log.filterMap Observation.write?) := by
  refine ⟨fun _ _ _ _ visit => visit.connecting_iff, ?_, ?_⟩
  · intro serving
    obtain ⟨done, held, front, split, visits, now⟩ := run.visits serving
    refine ⟨done, held, front, split, run.ended_eq, visits, ?_, now.visit, ?_⟩
    · exact now.kept_of_nil
    · intro all
      obtain ⟨frame, phase⟩ := now.exhausted all
      exact run.step_exhausted serving phase
  · intro gap p outcome packet bad
    have refuses : Refuses config.maxPayload (Act.packets acts) gap := by
      intro q hq
      obtain rfl := Option.some.inj (packet.symm.trans hq)
      simp [bad]
    have unseen := run.limited.refused gap p outcome packet bad
    obtain ⟨rest, omits, run'⟩ := run.omits refuses
    exact ⟨unseen, rest, _, _, omits, run', rfl, rfl, attempts_spare unseen, bytesOn_spare unseen⟩

/-- The first packet has no data. The second finds its connection at the second endpoint and is
answered with a failure, the third breaks that connection, and no endpoint accepts another. -/
def brokenTwice : List Act :=
  [.submit { dataSize := 1 }, .submit {}, .submit {}, .submit {}, .work .receive, .work .inspect,
    .call, .work .receive, .work .inspect, .work .progress, .work (.hear .refused),
    .work (.hear (.accepted 0)), .work (.hear (.took 23)), .work .progress,
    .work (.hear (.arrived [1, 0, 0, 0, 4])), .work .progress, .work .progress, .work .progress,
    .work .progress, .call, .work .receive, .work .inspect, .work .progress,
    .work (.hear (.took 5)), .work (.hear .broken), .call, .work .receive, .work .inspect,
    .work .progress, .work (.hear .refused), .work (.hear .refused)]

theorem reconnection_brokenTwice : ∃ log s,
    (start {} .zero [.v4 .loopback 3001, .v4 .loopback 3002]).Watched brokenTwice log s ∧
    log.filterMap Observation.attempt? = [(.v4 .loopback 3001, none), (.v4 .loopback 3002, some 0),
      (.v4 .loopback 3001, none), (.v4 .loopback 3002, none)] ∧
    s.ended.map (fun c => (c.place, c.report.outcome)) =
      [(0, .invalidDataSize), (1, .engineFailure), (2, .engineFailure)] ∧
    (∃ done held front, log = done ++ front ∧
      Visits [.v4 .loopback 3001, .v4 .loopback 3002] ({} : Config).maxPayload
        (Act.packets brokenTwice) 3 done held) ∧
    ∃ rest log' t, Omits 0 brokenTwice rest ∧
      (start {} .zero [.v4 .loopback 3001, .v4 .loopback 3002]).Watched rest log' t ∧
      log'.filterMap Observation.attempt? = log.filterMap Observation.attempt? := by
  have run : (start {} .zero [.v4 .loopback 3001, .v4 .loopback 3002]).Watched brokenTwice _ _ :=
    Watched.nil.follow (by decide) rfl
  obtain ⟨-, visited, omitted⟩ := run.reconnection
  obtain ⟨done, held, front, split, -, visits, -⟩ := visited rfl
  obtain ⟨-, rest, log', t, omits, run', -, -, attempts, -⟩ :=
    omitted 0 { dataSize := 1 } .invalidDataSize rfl rfl
  exact ⟨_, _, run, rfl, rfl, ⟨done, held, front, split, visits⟩, rest, log', t, omits, run',
    attempts⟩

end HostedWorker

end Courier.Forward
