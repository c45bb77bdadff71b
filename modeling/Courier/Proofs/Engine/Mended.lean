import Courier.Proofs.Client.Mapping
import Courier.Proofs.Client.References

/-!
# Engines that do not fail

A mended engine does what another one does, but where that would fail with a packet in its hands
it drops the packet and answers that it has taken it. Nothing else comes of the difference: a
client with the one engine and a client with the other do the same (`map_act`), apart from what
such a submit answers.
-/

namespace Courier

variable {σ : Type}

structure Mended (σ : Type) where
  engine : σ
  /-- Not all engines have to be mended. -/
  mended : Bool

namespace Mended

def mend (mended : Bool) (place : Place) (r : Reaction σ) : Reaction (Mended σ) :=
  match mended, r.verdict with
  | true, .panicked =>
    { engine := ⟨r.engine, true⟩, settlements := r.settlements ++ [⟨place, .drop⟩] }
  | mended, verdict => { engine := ⟨r.engine, mended⟩, settlements := r.settlements, verdict }

instance [Engine σ] : Engine (Mended σ) where
  submit x h p := mend x.mended h.length (Engine.submit x.engine h p)
  shutdown x h := Engine.shutdown x.engine h

instance [Launch σ] : Launch (Mended σ) where
  launch mode cluster endpoints config gate :=
    (Launch.launch mode cluster endpoints config gate).map fun engine => ⟨engine, true⟩

def answered (mended : Bool) : System.Answer → System.Answer
  | .panicked => if mended then .value (.ok ()) else .panicked
  | answer => answer

theorem answered_of_calm {answer : System.Answer} (calm : answer ≠ .panicked) (mended : Bool) :
    answered mended answer = answer := by
  cases answer with
  | value => rfl
  | panicked => exact absurd rfl calm

end Mended

namespace System

variable {s t : System (Mended σ)} {c d : ClientId} {p : PacketId}

abbrev unmended (s : System (Mended σ)) : System σ := s.map (·.engine)

def isMended (s : System (Mended σ)) (c : ClientId) : Bool := (s.engine? c).any (·.mended)

theorem offer_snoc (s : System σ) (c : ClientId) (p : PacketId) (r : Reaction σ)
    (place : Place) (e : Ending) :
    s.offer c p { r with settlements := r.settlements ++ [⟨place, e⟩] } =
      (s.offer c p r).settle c place e := by
  simp only [offer, react, settleAll, List.foldl_append, List.foldl_cons, List.foldl_nil]

theorem unmended_withdraw (s : System (Mended σ)) (c : ClientId) :
    (s.modify c (·.withdraw)).unmended = s.unmended.modify c (·.withdraw) :=
  map_modify _ s c fun _ => rfl

theorem packet?_unmended (place : Place) :
    (s.unmended.client? c).bind (·.packet? place) = (s.client? c).bind (·.packet? place) := by
  cases h : s.client? c <;> simp [h, Client.map, Client.packet?]

theorem nextPlace_unmended : s.unmended.nextPlace c = s.nextPlace c := by
  rw [nextPlace, held_map, nextPlace]

variable [Engine σ]

theorem reaction?_unmended (hx : s.engine? c = some x) :
    s.unmended.reaction? c p = some (Engine.submit x.engine (s.hold c) (s.memory p)) := by
  rw [reaction?, engine?_map, hold_map, hx]
  rfl

/-- With the engine as it was before a submit does the same, and answers the same unless it
fails. -/
theorem unmended_submit (s : System (Mended σ)) (c : ClientId) (p : PacketId) :
    (s.submit c p).2.unmended = (s.unmended.submit c p).2 ∧
      (s.submit c p).1 = Mended.answered (s.isMended c) (s.unmended.submit c p).1 := by
  cases hx : s.engine? c with
  | none =>
    have hnone : s.unmended.engine? c = none := by rw [engine?_map, hx, Option.map_none]
    rw [submit_of_closed hx, submit_of_closed hnone]
    exact ⟨rfl, rfl⟩
  | some x =>
    let r := Engine.submit x.engine (s.hold c) (s.memory p)
    have hr : s.unmended.reaction? c p = some r := reaction?_unmended hx
    have hmended : s.isMended c = x.mended := by rw [isMended, hx, Option.any_some]
    have hs : s.reaction? c p = some (Mended.mend x.mended (s.nextPlace c) r) := by
      rw [reaction?, hx, nextPlace, ← length_hold]
      rfl
    have hoffer (mended : Bool) (v : Verdict) :
        (s.offer c p ⟨⟨r.engine, mended⟩, r.settlements, v⟩).unmended = s.unmended.offer c p r :=
      map_offer _ s c p _
    rw [submit_of_reaction hs, submit_of_reaction hr, hmended, nextPlace_unmended]
    cases hv : r.verdict with
    | accepted =>
      have hmend : Mended.mend x.mended (s.nextPlace c) r =
          ⟨⟨r.engine, x.mended⟩, r.settlements, .accepted⟩ := by
        simp [Mended.mend, hv]
      rw [hmend]
      exact ⟨hoffer x.mended .accepted, rfl⟩
    | handedBack =>
      have hmend : Mended.mend x.mended (s.nextPlace c) r =
          ⟨⟨r.engine, x.mended⟩, r.settlements, .handedBack⟩ := by
        simp [Mended.mend, hv]
      rw [hmend, ← hoffer x.mended .handedBack]
      simp only [packet?_unmended]
      split
      · exact ⟨unmended_withdraw _ c, rfl⟩
      · exact ⟨rfl, rfl⟩
    | panicked =>
      have hdrop (mended : Bool) (v : Verdict) :
          ((s.offer c p ⟨⟨r.engine, mended⟩, r.settlements, v⟩).settle c (s.nextPlace c)
            .drop).unmended = (s.unmended.offer c p r).settle c (s.nextPlace c) .drop := by
        rw [← hoffer mended v]
        exact map_settle _ _ c _ .drop
      cases hm : x.mended with
      | false =>
        have hmend : Mended.mend false (s.nextPlace c) r =
            ⟨⟨r.engine, false⟩, r.settlements, .panicked⟩ := by
          simp [Mended.mend, hv]
        rw [hmend]
        exact ⟨hdrop false .panicked, rfl⟩
      | true =>
        have hmend : Mended.mend true (s.nextPlace c) r =
            ⟨⟨r.engine, true⟩, r.settlements ++ [⟨s.nextPlace c, .drop⟩], .accepted⟩ := by
          simp [Mended.mend, hv]
        have hsnoc := offer_snoc s c p ⟨(⟨r.engine, true⟩ : Mended σ), r.settlements, .accepted⟩
          (s.nextPlace c) .drop
        rw [hmend]
        exact ⟨(congrArg unmended hsnoc).trans (hdrop true .accepted), rfl⟩

theorem unmended_tearDown (s : System (Mended σ)) (c : ClientId) (x : Mended σ) :
    (s.tearDown c x).2.unmended = (s.unmended.tearDown c x.engine).2 ∧
      (s.tearDown c x).1 = (s.unmended.tearDown c x.engine).1 := by
  constructor
  · simp only [tearDown, map_abandon, map_settleAll, map_log, hold_map]
    rfl
  · simp only [tearDown, hold_map]
    rfl

theorem unmended_deinit (s : System (Mended σ)) (c : ClientId) :
    (s.deinit c).2.unmended = (s.unmended.deinit c).2 ∧
      (s.deinit c).1 = (s.unmended.deinit c).1 := by
  have hengine : s.unmended.engine? c = (s.engine? c).map (·.engine) := engine?_map _ s c
  cases hx : s.engine? c with
  | none =>
    rw [hx, Option.map_none] at hengine
    rw [deinit_of_closed hx, deinit_of_closed hengine]
    exact ⟨rfl, rfl⟩
  | some x =>
    rw [hx, Option.map_some] at hengine
    obtain ⟨hsystem, hfailed⟩ := unmended_tearDown (s.withoutEngine c) c x
    have hwithout : (s.withoutEngine c).unmended = s.unmended.withoutEngine c :=
      map_withoutEngine _ s c
    rw [hwithout] at hsystem hfailed
    rw [deinit_of_open hx, deinit_of_open hengine, hsystem, hfailed]
    exact ⟨rfl, rfl⟩

theorem unmended_release (s : System (Mended σ)) (c : ClientId) :
    (s.release c).2.unmended = (s.unmended.release c).2 := by
  have hreference : (s.withoutReference c).unmended = s.unmended.withoutReference c :=
    map_modify _ s c fun _ => rfl
  have hlast : ((s.unmended.withoutReference c).client? c).any (·.references == 0) =
      ((s.withoutReference c).client? c).any (·.references == 0) := by
    rw [← hreference, client?_map]
    cases (s.withoutReference c).client? c <;> rfl
  have hengine : (s.unmended.withoutReference c).engine? c =
      ((s.withoutReference c).engine? c).map (·.engine) := by
    rw [← hreference, engine?_map]
  unfold release
  simp only [hlast]
  split
  · cases hx : (s.withoutReference c).engine? c with
    | none =>
      rw [hx, Option.map_none] at hengine
      rw [take_of_closed hx, take_of_closed hengine]
      exact hreference
    | some x =>
      rw [hx, Option.map_some] at hengine
      rw [take_of_open hx, take_of_open hengine, ← hreference]
      have hwithout := map_withoutEngine (·.engine) (s.withoutReference c) c
      refine (unmended_tearDown _ c x).1.trans ?_
      exact congrArg (fun t => (t.tearDown c x.engine).2) hwithout
  · exact hreference

def Op.unmended : Op (Mended σ) → Op σ
  | .start k => .start (k.map (·.engine))
  | .fill p packet => .fill p packet
  | .submit c p => .submit c p
  | .deinit c => .deinit c
  | .retain c => .retain c
  | .release c => .release c
  | .work c x settlements => .work c x.engine settlements
  | .settle c place ending => .settle c place ending
  | .share c => .share c
  | .unshare c => .unshare c

def spares (s : System (Mended σ)) : Op (Mended σ) → Bool
  | .submit c _ => s.isMended c
  | _ => false

omit [Engine σ] in
theorem map_answered_false (answer : Option Answer) :
    answer.map (Mended.answered false) = answer := by
  rcases answer with _ | _ | _ <;> rfl

theorem unmended_act (s : System (Mended σ)) (op : Op (Mended σ)) :
    (s.act op).2.unmended = (s.unmended.act op.unmended).2 ∧
      (s.act op).1 = (s.unmended.act op.unmended).1.map (Mended.answered (s.spares op)) := by
  cases op with
  | start k => exact ⟨map_add _ s k.bare, rfl⟩
  | fill p packet => exact ⟨rfl, rfl⟩
  | submit c p =>
    obtain ⟨hsystem, hanswer⟩ := unmended_submit s c p
    exact ⟨hsystem, congrArg some hanswer⟩
  | deinit c =>
    obtain ⟨hsystem, hanswer⟩ := unmended_deinit s c
    exact ⟨hsystem, (congrArg some hanswer).trans (map_answered_false _).symm⟩
  | retain c => exact ⟨map_modify _ s c fun _ => rfl, rfl⟩
  | release c => exact ⟨unmended_release s c, rfl⟩
  | work c x settlements =>
    refine ⟨?_, rfl⟩
    simp only [act, Op.unmended, engine?_map, Option.isSome_map]
    split
    · exact map_react _ s c x settlements
    · rfl
  | settle c place ending => exact ⟨map_settle _ s c place ending, rfl⟩
  | share c => exact ⟨map_modify _ s c fun _ => rfl, rfl⟩
  | unshare c =>
    have hfewer : (s.modify c fun k => { k with sharers := k.sharers - 1 }).unmended =
        s.unmended.modify c fun k => { k with sharers := k.sharers - 1 } :=
      map_modify _ s c fun _ => rfl
    exact ⟨(map_abandon _ _ c).trans (congrArg (·.abandon c) hfewer), rfl⟩

-- ---------------------------------------------------------------------------
-- Where all engines are mended
-- ---------------------------------------------------------------------------

def AllMended (s : System (Mended σ)) : Prop := ∀ c x, s.engine? c = some x → x.mended = true

def Op.Mends : Op (Mended σ) → Prop
  | .start k => ∀ x, k.engine = some x → x.mended = true
  | .work _ x _ => x.mended = true
  | _ => True

omit [Engine σ] in
theorem exists_mended_client (k : Client σ) :
    ∃ x : Client (Mended σ), x.map (·.engine) = k ∧ ∀ y, x.engine = some y → y.mended = true := by
  refine ⟨k.map fun engine => ⟨engine, true⟩, ?_, ?_⟩
  · have hengine : (k.engine.map fun engine => (⟨engine, true⟩ : Mended σ)).map (·.engine) =
        k.engine := by
      cases k.engine <;> rfl
    rw [Client.map, Client.map, hengine]
  · intro y hy
    obtain ⟨engine, -, rfl⟩ := Option.map_eq_some_iff.mp hy
    rfl

omit [Engine σ] in
/-- Whatever happens to clients can happen to clients with mended engines. -/
theorem exists_mended_op (op : Op σ) :
    ∃ x : Op (Mended σ), x.unmended = op ∧ x.Mends := by
  cases op with
  | start k =>
    obtain ⟨x, rfl, mends⟩ := exists_mended_client k
    exact ⟨.start x, rfl, mends⟩
  | fill p packet => exact ⟨.fill p packet, rfl, trivial⟩
  | submit c p => exact ⟨.submit c p, rfl, trivial⟩
  | deinit c => exact ⟨.deinit c, rfl, trivial⟩
  | retain c => exact ⟨.retain c, rfl, trivial⟩
  | release c => exact ⟨.release c, rfl, trivial⟩
  | work c engine settlements => exact ⟨.work c ⟨engine, true⟩ settlements, rfl, rfl⟩
  | settle c place ending => exact ⟨.settle c place ending, rfl, trivial⟩
  | share c => exact ⟨.share c, rfl, trivial⟩
  | unshare c => exact ⟨.unshare c, rfl, trivial⟩

omit [Engine σ] in
theorem mended_mend (mended : Bool) (place : Place) (r : Reaction σ) :
    (Mended.mend mended place r).engine.mended = mended := by
  unfold Mended.mend
  split <;> rfl

namespace AllMended

omit [Engine σ] in
theorem of_bare (h : s.AllMended)
    (bare : ∀ d, (t.client? d).map (·.bare) = (s.client? d).map (·.bare)) : t.AllMended :=
  fun c x hx => h c x ((engine?_congr (bare c)).symm.trans hx)

omit [Engine σ] in
theorem modify (h : s.AllMended) (d : ClientId) {f : Client (Mended σ) → Client (Mended σ)}
    (engine : ∀ k, (f k).engine = k.engine) : (s.modify d f).AllMended :=
  fun c x hx => h c x ((engine?_modify engine).symm.trans hx)

omit [Engine σ] in
theorem of_other (h : s.AllMended) (other : ∀ c, d ≠ c → t.client? c = s.client? c)
    (own : ∀ x, t.engine? d = some x → x.mended = true) : t.AllMended := by
  intro c x hx
  by_cases hd : d = c
  · exact own x (hd ▸ hx)
  · refine h c x ?_
    rw [engine?, other c hd] at hx
    exact hx

theorem act (h : s.AllMended) {op : Op (Mended σ)} (mends : op.Mends) :
    (s.act op).2.AllMended := by
  cases op with
  | start k =>
    intro c x hx
    have hclient := client?_add s k.bare c
    by_cases hc : c = s.clients.length
    · rw [if_pos hc] at hclient
      exact mends x ((congrArg (Option.bind · Client.engine) hclient).symm.trans hx)
    · rw [if_neg hc] at hclient
      exact h c x ((congrArg (Option.bind · Client.engine) hclient).symm.trans hx)
  | fill p packet => exact h
  | submit d p =>
    refine h.of_other (fun c hd => client?_submit_other hd s p) ?_
    intro x hx
    cases hy : s.engine? d with
    | none =>
      have same : (s.act (.submit d p)).2 = s := congrArg (·.2) (submit_of_closed hy p)
      exact h d x (same ▸ hx)
    | some y =>
      have hr : s.reaction? d p = some (Engine.submit y (s.hold d) (s.memory p)) := by
        rw [reaction?, hy]
        rfl
      obtain rfl := Option.some.inj ((engine?_submit hr).symm.trans hx)
      exact (mended_mend ..).trans (h d y hy)
  | deinit d =>
    refine h.of_other (fun c hd => client?_deinit_other hd s) ?_
    intro x hx
    cases (engine?_deinit s d).symm.trans hx
  | retain d => exact h.modify d fun _ => rfl
  | release d =>
    rcases release_cases s d with hs | ⟨engine, -, -, hs⟩
    · rw [show (s.act (.release d)).2 = s.withoutReference d from hs]
      exact h.modify d fun _ => rfl
    · refine h.of_other (fun c hd => client?_release_other hd s) ?_
      intro x hx
      have gone : (((s.withoutReference d).withoutEngine d).tearDown d engine).2.engine? d = none :=
        (engine?_congr (bare_tearDown _ d engine d)).trans (engine?_withoutEngine _ d)
      cases (gone.symm.trans (hs ▸ hx))
  | work d x settlements =>
    simp only [System.act]
    split
    · next engaged =>
      obtain ⟨k, hk, -⟩ := client_of_engine (Option.eq_some_of_isSome engaged)
      have other : ∀ c, d ≠ c → (s.react d x settlements).client? c = s.client? c := fun c hd =>
        (client?_settleAll_other hd _ settlements).trans (client?_modify_other hd s _)
      refine h.of_other other ?_
      intro y hy
      obtain rfl := Option.some.inj ((engine?_react hk x settlements).symm.trans hy)
      exact mends
    · exact h
  | settle d place ending => exact h.of_bare fun c => bare_settle s d place ending c
  | share d => exact h.modify d fun _ => rfl
  | unshare d =>
    have fewer : (s.modify d fun k => { k with sharers := k.sharers - 1 }).AllMended :=
      h.modify d fun _ => rfl
    exact fewer.of_bare fun c => bare_abandon _ d c

end AllMended

end System

end Courier
