import Courier.Proofs.Client.References

/-!
# Packets on loan

The host gets its packets back as it has lent them but for the outcome and the result, which
are those of the last delivery. `Delivers` is the way from one system to another on which nothing
has happened to a packet but deliveries. As long as the host itself leaves a packet alone,
everything that clients and engines do is such a way (`Run.delivers`).
-/

namespace Courier

namespace Packet

structure SameRequest (p q : Packet) : Prop where
  userData : q.userData = p.userData
  data : q.data = p.data
  dataSize : q.dataSize = p.dataSize
  tag : q.tag = p.tag
  operation : q.operation = p.operation
  reserved : q.reserved = p.reserved

def filled (p : Packet) : Option Report → Packet
  | none => p
  | some r => p.fill r

theorem sameRequest_filled (p : Packet) (last : Option Report) : p.SameRequest (p.filled last) := by
  cases last <;> exact ⟨rfl, rfl, rfl, rfl, rfl, rfl⟩

theorem filled_filled (p : Packet) (first last : Option Report) :
    (p.filled first).filled last = p.filled (last.or first) := by
  cases first <;> cases last <;> rfl

end Packet

namespace Report

def status (r : Report) : UInt64 := r.outcome.code.toUInt64

theorem pointer_eq_none_iff {r : Report} (fits : r.result.length < UInt32.size) :
    r.pointer = none ↔ r.size = 0 := by
  have hsize : r.size = 0 ↔ r.result.length = 0 := by
    rw [← UInt32.toNat_inj, size, UInt32.toNat_ofNat_of_lt' fits]
    rfl
  rw [hsize, List.length_eq_zero_iff, pointer]
  simp

theorem length_of (outcome : Outcome) (result : Bytes) :
    (Report.of outcome result).result.length < UInt32.size := by
  unfold Report.of
  split
  · assumption
  · decide

end Report

theorem Ending.length_report (e : Ending) : e.report.result.length < UInt32.size := by
  cases e with
  | complete outcome result => exact Report.length_of outcome result
  | drop => decide

/-- While the call runs the packet says the same as the call. -/
structure Completion.Agrees (x : Completion) : Prop where
  status : x.found.status.toUInt64 = x.report.status
  result : x.found.result = x.report.pointer
  size : x.found.resultSize = x.report.size
  absent : x.report.pointer = none ↔ x.report.size = 0

def lastReport? (p : PacketId) (calls : List Completion) : Option Report :=
  (calls.filter (·.packet == p)).getLast?.map (·.report)

theorem lastReport?_append (p : PacketId) (calls more : List Completion) :
    lastReport? p (calls ++ more) = (lastReport? p more).or (lastReport? p calls) := by
  rw [lastReport?, List.filter_append, List.getLast?_append, Option.map_or]
  rfl

theorem lastReport?_singleton (p : PacketId) (x : Completion) :
    lastReport? p [x] = if x.packet = p then some x.report else none := by
  by_cases hx : x.packet = p <;> simp [lastReport?, hx]

namespace System

variable {σ : Type} {s t u : System σ} {c : ClientId} {p : PacketId} {called more : List Completion}

-- ---------------------------------------------------------------------------
-- Deliveries
-- ---------------------------------------------------------------------------

def context? (s : System σ) (c : ClientId) : Option UInt64 := (s.client? c).map (·.context)

/-- On the way from one system to the other nothing has happened to the packet but deliveries,
and these calls were made, for this packet and for others. -/
structure Delivers (s : System σ) (p : PacketId) (called : List Completion) (t : System σ) :
    Prop where
  completions : t.completions = s.completions ++ called
  memory : t.memory p = (s.memory p).filled (lastReport? p called)
  found : ∀ x ∈ called, x.packet = p → x.found = (s.memory p).fill x.report
  agrees : ∀ x ∈ called, x.Agrees
  context : ∀ x ∈ called, t.context? x.client = some x.context
  /-- A client keeps the context that it is bound to. -/
  bound : ∀ c context, s.context? c = some context → t.context? c = some context

namespace Delivers

theorem refl (s : System σ) (p : PacketId) : s.Delivers p [] s where
  completions := (List.append_nil _).symm
  memory := rfl
  found := nofun
  agrees := nofun
  context := nofun
  bound _ _ h := h

theorem of_log (s : System σ) (p : PacketId) {e : Entry} (he : e.completion? = none) :
    s.Delivers p [] (s.log e) :=
  { refl s p with completions := by simp [completions_log, he] }

theorem of_modify (s : System σ) (p : PacketId) (c : ClientId) {f : Client σ → Client σ}
    (keeps : ∀ k, (f k).context = k.context) : s.Delivers p [] (s.modify c f) where
  completions := (List.append_nil _).symm
  memory := rfl
  found := nofun
  agrees := nofun
  context := nofun
  bound _ _ h := (Lasting.modify keeps).trans h

theorem trans (first : s.Delivers p called t) (second : t.Delivers p more u) :
    s.Delivers p (called ++ more) u where
  completions := by rw [second.completions, first.completions, List.append_assoc]
  memory := by rw [second.memory, first.memory, Packet.filled_filled, lastReport?_append]
  found x hx hp := by
    rcases List.mem_append.mp hx with hx | hx
    · exact first.found x hx hp
    · -- what an earlier delivery has written a later one writes again
      rw [second.found x hx hp, first.memory]
      cases lastReport? p called <;> rfl
  agrees x hx := (List.mem_append.mp hx).elim (first.agrees x) (second.agrees x)
  context x hx := (List.mem_append.mp hx).elim
    (fun hx => second.bound _ _ (first.context x hx)) (second.context x)
  bound c context h := second.bound c context (first.bound c context h)

theorem settle (s : System σ) (p : PacketId) (c : ClientId) (place : Place) (e : Ending) :
    ∃ called, s.Delivers p called (s.settle c place e) := by
  cases hq : (s.held c)[place]?.join with
  | none =>
    rw [settle_of_no_loan hq]
    exact ⟨[], refl s p⟩
  | some q =>
    obtain ⟨k, hk, -, -, memory, completions⟩ := settle_of_loan (Option.join_eq_some_iff.mp hq) e
    have same (d : ClientId) : (s.settle c place e).context? d = s.context? d :=
      lasting_context.congr (bare_settle s c place e d)
    refine ⟨[s.lastCall c k place q e], completions, ?_, ?_, ?_, ?_, fun d _ h => (same d).trans h⟩
    · rw [memory, lastReport?_singleton, Memory.set]
      by_cases hp : p = q
      · subst hp
        simp [lastCall, Packet.filled]
      · simp [lastCall, Packet.filled, hp, Ne.symm hp]
    · intro x hx hp
      obtain rfl := List.mem_singleton.mp hx
      exact hp ▸ rfl
    · intro x hx
      obtain rfl := List.mem_singleton.mp hx
      exact ⟨rfl, rfl, rfl, Report.pointer_eq_none_iff e.length_report⟩
    · intro x hx
      obtain rfl := List.mem_singleton.mp hx
      exact (same c).trans (congrArg (Option.map _) hk)

theorem settleAll (s : System σ) (p : PacketId) (c : ClientId) (settlements : List Settlement) :
    ∃ called, s.Delivers p called (s.settleAll c settlements) := by
  induction settlements generalizing s with
  | nil => exact ⟨[], refl s p⟩
  | cons x rest ih =>
    obtain ⟨called, first⟩ := settle s p c x.place x.ending
    obtain ⟨more, second⟩ := ih (s.settle c x.place x.ending)
    exact ⟨called ++ more, first.trans second⟩

theorem abandon (s : System σ) (p : PacketId) (c : ClientId) :
    ∃ called, s.Delivers p called (s.abandon c) := by
  unfold System.abandon
  split
  · exact ⟨[], refl s p⟩
  · split
    · exact settleAll s p c _
    · exact ⟨[], refl s p⟩

theorem react (s : System σ) (p : PacketId) (c : ClientId) (engine : σ)
    (settlements : List Settlement) :
    ∃ called, s.Delivers p called (s.react c engine settlements) := by
  have replaced := of_modify s p c (f := fun k => { k with engine := some engine }) fun _ => rfl
  obtain ⟨called, settled⟩ := settleAll _ p c settlements
  exact ⟨_, replaced.trans settled⟩

theorem offer (s : System σ) (p : PacketId) (c : ClientId) (q : PacketId) (r : Reaction σ) :
    ∃ called, s.Delivers p called (s.offer c q r) := by
  have offered := of_log s p (e := .offered c q) rfl
  have issued := of_modify (s.log (.offered c q)) p c (f := (·.issue q)) fun _ => rfl
  obtain ⟨called, reacted⟩ := react _ p c r.engine r.settlements
  exact ⟨_, (offered.trans issued).trans reacted⟩

theorem add (s : System σ) (p : PacketId) (k : Client σ) : s.Delivers p [] (s.add k).2 where
  completions := (List.append_nil _).symm
  memory := rfl
  found := nofun
  agrees := nofun
  context := nofun
  bound c context h := by
    have old : c ≠ s.clients.length := by
      rintro rfl
      simp [context?, client?] at h
    rw [context?, client?_add, if_neg old]
    exact h

variable [Engine σ]

theorem submit (s : System σ) (p : PacketId) (c : ClientId) (q : PacketId) :
    ∃ called, s.Delivers p called (s.submit c q).2 := by
  have hs := submission s c q
  generalize s.submit c q = out at hs
  cases hs with
  | closed => exact ⟨[], refl s p⟩
  | accepted => exact offer s p c q _
  | handedBack =>
    obtain ⟨called, offered⟩ := offer s p c q _
    exact ⟨_, offered.trans (of_modify _ p c fun _ => rfl)⟩
  | panicked =>
    obtain ⟨called, offered⟩ := offer s p c q _
    obtain ⟨more, dropped⟩ := settle _ p c _ .drop
    exact ⟨_, offered.trans dropped⟩

theorem tearDown (s : System σ) (p : PacketId) (c : ClientId) (engine : σ) :
    ∃ called, s.Delivers p called (s.tearDown c engine).2 := by
  have released := of_log s p (e := .released c) rfl
  obtain ⟨called, settled⟩ :=
    settleAll (s.log (.released c)) p c (Engine.shutdown engine (s.hold c)).settlements
  obtain ⟨more, abandoned⟩ := abandon _ p c
  exact ⟨_, released.trans (settled.trans abandoned)⟩

theorem deinit (s : System σ) (p : PacketId) (c : ClientId) :
    ∃ called, s.Delivers p called (s.deinit c).2 := by
  cases he : s.engine? c with
  | none =>
    rw [deinit_of_closed he]
    exact ⟨[], refl s p⟩
  | some engine =>
    rw [deinit_of_open he]
    have taken := of_modify s p c (f := fun k => { k with engine := none }) fun _ => rfl
    obtain ⟨called, tornDown⟩ := tearDown _ p c engine
    exact ⟨_, taken.trans tornDown⟩

theorem release (s : System σ) (p : PacketId) (c : ClientId) :
    ∃ called, s.Delivers p called (s.release c).2 := by
  have fewer := of_modify s p c (f := fun k => { k with references := k.references - 1 })
    fun _ => rfl
  rcases release_cases s c with hs | ⟨engine, -, -, hs⟩ <;> rw [hs]
  · exact ⟨[], fewer⟩
  · have taken := of_modify (s.withoutReference c) p c (f := fun k => { k with engine := none })
      fun _ => rfl
    obtain ⟨called, tornDown⟩ := tearDown _ p c engine
    exact ⟨_, (fewer.trans taken).trans tornDown⟩

end Delivers

def written? : Op σ → Option PacketId
  | .fill p _ => some p
  | _ => none

/-- The host itself writes nothing to the packet. -/
def LeftAlone (p : PacketId) (trace : Trace σ) : Prop := ∀ entry ∈ trace, written? entry.1 ≠ some p

instance (p : PacketId) (trace : Trace σ) : Decidable (LeftAlone p trace) :=
  inferInstanceAs (Decidable (∀ entry ∈ trace, written? entry.1 ≠ some p))

variable [Engine σ]

/-- Whatever is done to clients and engines, or to other packets. -/
theorem delivers_act (s : System σ) {op : Op σ} (other : written? op ≠ some p) :
    ∃ called, s.Delivers p called (s.act op).2 := by
  cases op with
  | start k => exact ⟨[], .add s p k.bare⟩
  | fill q packet =>
    have hne : p ≠ q := fun h => other (h ▸ rfl)
    exact ⟨[], { Delivers.refl s p with memory := if_neg hne }⟩
  | submit c q => exact Delivers.submit s p c q
  | deinit c => exact Delivers.deinit s p c
  | retain c => exact ⟨[], .of_modify s p c fun _ => rfl⟩
  | release c => exact Delivers.release s p c
  | work c engine settlements =>
    simp only [act]
    split
    · exact Delivers.react s p c engine settlements
    · exact ⟨[], .refl s p⟩
  | settle c place ending => exact Delivers.settle s p c place ending
  | share c => exact ⟨[], .of_modify s p c fun _ => rfl⟩
  | unshare c =>
    have fewer := Delivers.of_modify s p c (f := fun k => { k with sharers := k.sharers - 1 })
      fun _ => rfl
    obtain ⟨called, abandoned⟩ := Delivers.abandon _ p c
    exact ⟨_, fewer.trans abandoned⟩

theorem Midway.delivers (h : Midway c s pending t) (p : PacketId) :
    ∃ called, s.Delivers p called t := by
  have closing (s : System σ) : s.Delivers p [] ((s.withoutEngine c).log (.released c)) := by
    have taken := Delivers.of_modify s p c (f := fun k => { k with engine := none }) fun _ => rfl
    exact taken.trans (.of_log _ p rfl)
  induction h with
  | submitting => exact Delivers.offer _ p c _ _
  | @closing s engine t taken count =>
    obtain rfl : s.withoutEngine c = t := congrArg (·.2) taken
    obtain ⟨called, settled⟩ := Delivers.settleAll ((s.withoutEngine c).log (.released c)) p c _
    exact ⟨_, (closing s).trans settled⟩
  | @abandoning s engine t taken count =>
    obtain rfl : s.withoutEngine c = t := congrArg (·.2) taken
    obtain ⟨called, settled⟩ := Delivers.settleAll ((s.withoutEngine c).log (.released c)) p c _
    obtain ⟨more, abandoned⟩ := Delivers.settleAll _ p c _
    exact ⟨_, (closing s).trans (settled.trans abandoned)⟩
  | @releasing s t _ ih =>
    have fewer := Delivers.of_modify s p c (f := fun k => { k with references := k.references - 1 })
      fun _ => rfl
    obtain ⟨called, delivers⟩ := ih
    exact ⟨_, fewer.trans delivers⟩

-- ---------------------------------------------------------------------------
-- Runs
-- ---------------------------------------------------------------------------

theorem Run.delivers (run : s.Run trace t) (alone : LeftAlone p trace) :
    ∃ called, s.Delivers p called t := by
  induction run with
  | nil => exact ⟨[], .refl s p⟩
  | @snoc trace t _ op ih =>
    obtain ⟨first, last⟩ := List.forall_mem_append.mp alone
    obtain ⟨called, delivers⟩ := ih first
    obtain ⟨more, next⟩ := delivers_act t (last _ List.mem_cons_self)
    exact ⟨_, delivers.trans next⟩

/-- The call says what the packet says, with the context that its client is bound to. -/
structure MatchesPacket (s : System σ) (x : Completion) : Prop where
  agrees : x.Agrees
  context : s.context? x.client = some x.context

/-- Whichever packets the host writes to, there is another one that it leaves alone. -/
theorem matchesPacket_act (h : ∀ x ∈ s.completions, s.MatchesPacket x) (op : Op σ) :
    ∀ x ∈ (s.act op).2.completions, (s.act op).2.MatchesPacket x := by
  obtain ⟨p, other⟩ : ∃ p, written? op ≠ some p := by
    cases op with
    | fill q packet => exact ⟨q + 1, fun h => by simp [written?] at h⟩
    | _ => exact ⟨0, nofun⟩
  obtain ⟨called, delivers⟩ := delivers_act s other
  intro x hx
  rw [delivers.completions, List.mem_append] at hx
  rcases hx with hx | hx
  · exact ⟨(h x hx).agrees, delivers.bound _ _ (h x hx).context⟩
  · exact ⟨delivers.agrees x hx, delivers.context x hx⟩

theorem Run.matchesPacket {m : Memory} (run : Run { memory := m } trace t) :
    ∀ x ∈ t.completions, t.MatchesPacket x := by
  induction run with
  | nil => exact nofun
  | snoc _ op ih => exact matchesPacket_act ih op

theorem Run.issued_of_call {m : Memory} (run : Run { memory := m } trace t)
    (hx : x ∈ t.completions) : (issuedIn x.client trace)[x.place]? = some x.packet := by
  have balanced := run.balanced (balanced_empty m x.client)
  have ended : (x.packet, x.place) ∈ t.ended x.client :=
    List.mem_map.mpr ⟨x, List.mem_filter.mpr ⟨hx, by simp⟩, rfl⟩
  have mem := balanced.loans.mem_iff.mp (List.mem_append_left _ ended)
  simpa [List.mem_zipIdx_iff_getElem?] using mem

/-- Until the host itself writes to a packet again, nothing but deliveries changes it, and they
change nothing but what they report. At every moment, also in the course of a call, it says what
its last delivery has reported; a submit that is refused leaves it as it is. While the host is
called back the packet agrees with what the call says, and the call has the context of the client
that the packet was submitted to. -/
theorem Run.lending {m : Memory} (before : Run { memory := m } history s) (later : s.Run period t)
    (alone : LeftAlone p period) :
    (∀ u, (u = t ∨ ∃ c pending, Midway c t pending u) →
      ∃ called, s.Delivers p called u ∧ (s.memory p).SameRequest (u.memory p)) ∧
    (∀ c error, (t.submit c p).1 = .value (.error error) → t.outstanding c p = 0 →
      (t.submit c p).2.memory p = t.memory p) ∧
    ∀ x ∈ t.completions, t.MatchesPacket x ∧
      (issuedIn x.client (history ++ period))[x.place]? = some x.packet := by
  have run := before.append later
  refine ⟨?_, ?_, fun x hx => ⟨run.matchesPacket x hx, run.issued_of_call hx⟩⟩
  · intro u moment
    obtain ⟨called, delivers⟩ : ∃ called, s.Delivers p called u := by
      obtain ⟨called, delivers⟩ := later.delivers alone
      rcases moment with rfl | ⟨c, pending, midway⟩
      · exact ⟨called, delivers⟩
      · obtain ⟨more, rest⟩ := midway.delivers p
        exact ⟨_, delivers.trans rest⟩
    exact ⟨called, delivers, delivers.memory ▸ Packet.sameRequest_filled _ _⟩
  · intro c error refused free
    obtain ⟨called, hcalled⟩ := submit_refused refused
    refine hcalled.memory p ?_
    intro x hx hxp
    exact absurd (List.countP_eq_zero.mp free _ (hcalled.loans x hx).2) (by simp [hxp])

def lent : List (Op Scripted) :=
  [.start <| .ofEngine .zero [] .echo 7 { onSubmit := .echo },
    .fill 3 { userData := 9, data := some [1, 2], dataSize := 2, status := 42, reserved := 5 }]

/-- The packet is accepted, ended and, after the client was closed, refused. -/
def used : List (Op Scripted) := [.submit 0 3, .deinit 0, .submit 0 3]

theorem lending_used :
    let s := (perform {} lent).2
    let t := (s.perform used).2
    Run {} (perform {} lent).1 s ∧ s.Run (s.perform used).1 t ∧ LeftAlone 3 (s.perform used).1 ∧
      (∃ called, s.Delivers 3 called t ∧ (s.memory 3).SameRequest (t.memory 3)) ∧
      (∃ x ∈ t.completions, x.context = 7 ∧ x.Agrees) ∧
      (t.memory 3).result = some [1, 2] ∧ (t.memory 3).status = Outcome.ok.code := by
  have history := run_perform {} lent
  have period := run_perform (perform {} lent).2 used
  have alone : LeftAlone 3 ((perform {} lent).2.perform used).1 := by decide
  obtain ⟨moments, -, calls⟩ := Run.lending history period alone
  have called : ∃ x ∈ ((perform {} lent).2.perform used).2.completions, x.context = 7 := by decide
  obtain ⟨x, hx, hcontext⟩ := called
  exact ⟨history, period, alone, moments _ (.inl rfl), ⟨x, hx, hcontext, (calls x hx).1.agrees⟩,
    rfl, rfl⟩

end System

end Courier
