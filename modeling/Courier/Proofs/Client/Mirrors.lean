import Courier.Proofs.Client.References

/-!
# Clients side by side

What is done to a client touches its own packets and nothing of the other clients (`LocalTo`). So
a second system that has only some of the clients of the first, with the packets that they may
be lent, keeps up with whatever is done to those (`Mirrors.task`), and there is nothing for it
to do when something is done to any other (`Mirrors.localTo`).
-/

namespace Courier

inductive Task (σ : Type) where
  | submit (p : PacketId)
  | deinit
  | retain
  | release
  /-- The engine does some of its work, if it is still there: whatever it makes of its own state
  and of what it holds. -/
  | work (turn : σ → Hold → σ × List Settlement)
  /-- Somebody who holds a loan of the client ends it. -/
  | settle (place : Place) (ending : Ending)
  | share
  | unshare

def Task.Owned {σ : Type} (own : PacketId → Prop) : Task σ → Prop
  | .submit p => own p
  | _ => True

instance {σ : Type} (own : PacketId → Prop) [DecidablePred own] :
    (task : Task σ) → Decidable (task.Owned own)
  | .submit p => inferInstanceAs (Decidable (own p))
  | .deinit | .retain | .release | .work _ | .settle .. | .share | .unshare => .isTrue trivial

def Completion.among (mine : List ClientId) (x : Completion) : Completion :=
  { x with client := mine.idxOf x.client }

namespace System

variable {σ : Type} {s t u : System σ} {c d : ClientId} {n : Nat} {mine : List ClientId}
  {own other : PacketId → Prop}

def task [Engine σ] (s : System σ) (c : ClientId) : Task σ → Option Answer × System σ
  | .submit p => (some (s.submit c p).1, (s.submit c p).2)
  | .deinit => (some (s.deinit c).1, (s.deinit c).2)
  | .retain => (none, s.retain c)
  | .release => (if (s.release c).1 then some .panicked else none, (s.release c).2)
  | .work turn =>
    match s.engine? c with
    | none => (none, s)
    | some engine =>
      let (engine, settlements) := turn engine (s.hold c)
      (none, s.react c engine settlements)
  | .settle place ending => (none, s.settle c place ending)
  | .share => (none, s.share c)
  | .unshare => (none, s.unshare c)

theorem length_settle (s : System σ) (c : ClientId) (place : Place) (e : Ending) :
    (s.settle c place e).clients.length = s.clients.length := by
  unfold settle
  split
  · rfl
  · unfold deliver callBack
    split <;> simp [modify, fill, log]

theorem held_modify {f : Client σ → Client σ}
    (lent : ∀ k p, some p ∈ (f k).held → some p ∈ k.held ∨ own p)
    (held : ∀ p, some p ∈ s.held c → own p) : ∀ p, some p ∈ (s.modify c f).held c → own p := by
  intro p hp
  cases hk : s.client? c with
  | none => simp [System.held, hk] at hp
  | some k =>
    have hp : some p ∈ (f k).held := by simpa [System.held, hk] using hp
    exact (lent k p hp).elim (fun hp => held p (held_of_client hk ▸ hp)) id

-- ---------------------------------------------------------------------------
-- One client
-- ---------------------------------------------------------------------------

/-- On the way from one system to the other a client was at work with packets of its own, and
nothing else has changed. -/
structure LocalTo (own : PacketId → Prop) (c : ClientId) (s t : System σ) : Prop where
  length : t.clients.length = s.clients.length
  others : ∀ d, c ≠ d → t.client? d = s.client? d
  memory : ∀ p, ¬ own p → t.memory p = s.memory p
  held : ∀ p, some p ∈ t.held c → own p
  completions : ∃ called, t.completions = s.completions ++ called ∧ ∀ x ∈ called, x.client = c

namespace LocalTo

theorem refl (h : ∀ p, some p ∈ s.held c → own p) : LocalTo own c s s where
  length := rfl
  others _ _ := rfl
  memory _ _ := rfl
  held := h
  completions := ⟨[], (List.append_nil _).symm, nofun⟩

theorem modify (h : LocalTo own c s t) {f : Client σ → Client σ}
    (lent : ∀ k p, some p ∈ (f k).held → some p ∈ k.held ∨ own p) :
    LocalTo own c s (t.modify c f) where
  length := (List.length_modify ..).trans h.length
  others d hd := (client?_modify_other hd t f).trans (h.others d hd)
  memory := h.memory
  held := held_modify lent h.held
  completions := h.completions

theorem log (h : LocalTo own c s t) {e : Entry} (he : e.completion? = none) :
    LocalTo own c s (t.log e) where
  length := h.length
  others := h.others
  memory := h.memory
  held := h.held
  completions := by simpa [completions_log, he] using h.completions

theorem settle (h : LocalTo own c s t) (place : Place) (e : Ending) :
    LocalTo own c s (t.settle c place e) := by
  cases hp : (t.held c)[place]?.join with
  | none => rwa [settle_of_no_loan hp]
  | some p =>
    replace hp := Option.join_eq_some_iff.mp hp
    have hown : own p := h.held p (List.mem_of_getElem? hp)
    obtain ⟨k, hk, -, hclient, hmemory, hcalls⟩ := settle_of_loan hp e
    obtain ⟨called, hcalled, hclients⟩ := h.completions
    refine ⟨(length_settle t c place e).trans h.length, ?_, ?_, ?_, ?_⟩
    · intro d hd
      rw [hclient, if_neg hd]
      exact h.others d hd
    · intro q hq
      have hne : q ≠ p := fun same => hq (same ▸ hown)
      rw [hmemory, Memory.set, if_neg hne]
      exact h.memory q hq
    · intro q hq
      rw [held_settle hp, if_pos rfl] at hq
      exact h.held q ((List.mem_or_eq_of_mem_set hq).resolve_right (by simp))
    · refine ⟨called ++ [t.lastCall c k place p e], by rw [hcalls, hcalled, List.append_assoc], ?_⟩
      exact List.forall_mem_append.mpr ⟨hclients, List.forall_mem_singleton.mpr rfl⟩

theorem settleAll (h : LocalTo own c s t) (settlements : List Settlement) :
    LocalTo own c s (t.settleAll c settlements) := by
  induction settlements generalizing t with
  | nil => exact h
  | cons x rest ih => exact ih (h.settle x.place x.ending)

theorem abandon (h : LocalTo own c s t) : LocalTo own c s (t.abandon c) := by
  unfold System.abandon
  split
  · exact h
  · split
    · exact h.settleAll _
    · exact h

theorem react (h : LocalTo own c s t) (engine : σ) (settlements : List Settlement) :
    LocalTo own c s (t.react c engine settlements) :=
  (h.modify (f := fun k => { k with engine := some engine }) fun _ _ => .inl).settleAll settlements

theorem offer (h : LocalTo own c s t) (hp : own p) (r : Reaction σ) :
    LocalTo own c s (t.offer c p r) := by
  refine ((h.log rfl).modify (f := (·.issue p)) fun k q hq => ?_).react r.engine r.settlements
  rcases List.mem_append.mp hq with hq | hq
  · exact .inl hq
  · exact .inr (Option.some.inj (List.mem_singleton.mp hq) ▸ hp)

section

variable [Engine σ]

theorem submit (h : LocalTo own c s t) (hp : own p) : LocalTo own c s (t.submit c p).2 := by
  have hs := submission t c p
  generalize t.submit c p = out at hs
  cases hs with
  | closed => exact h
  | accepted => exact h.offer hp _
  | handedBack => exact (h.offer hp _).modify fun _ _ hq => .inl (List.dropLast_subset _ hq)
  | panicked => exact (h.offer hp _).settle _ .drop

theorem tearDown (h : LocalTo own c s t) (engine : σ) : LocalTo own c s (t.tearDown c engine).2 :=
  ((h.log rfl).settleAll _).abandon

theorem deinit (h : LocalTo own c s t) : LocalTo own c s (t.deinit c).2 := by
  cases he : t.engine? c with
  | none => rwa [deinit_of_closed he]
  | some engine =>
    have taken : LocalTo own c s (t.withoutEngine c) := h.modify fun _ _ => .inl
    rw [deinit_of_open he]
    exact taken.tearDown engine

theorem release (h : LocalTo own c s t) : LocalTo own c s (t.release c).2 := by
  have less : LocalTo own c s (t.withoutReference c) := h.modify fun _ _ => .inl
  have taken : LocalTo own c s ((t.withoutReference c).withoutEngine c) :=
    less.modify fun _ _ => .inl
  rcases release_cases t c with hr | ⟨engine, -, -, hr⟩ <;> rw [hr]
  · exact less
  · exact taken.tearDown engine

theorem task (h : LocalTo own c s t) (task : Task σ) (owned : task.Owned own) :
    LocalTo own c s (t.task c task).2 := by
  cases task with
  | submit p => exact h.submit owned
  | deinit => exact h.deinit
  | retain | share => exact h.modify fun _ _ => .inl
  | release => exact h.release
  | work turn =>
    simp only [System.task]
    split
    · exact h
    · exact h.react _ _
  | settle place ending => exact h.settle place ending
  | unshare =>
    have fewer : LocalTo own c s (t.modify c fun k => { k with sharers := k.sharers - 1 }) :=
      h.modify fun _ _ => .inl
    exact fewer.abandon

end

end LocalTo

-- ---------------------------------------------------------------------------
-- Two systems
-- ---------------------------------------------------------------------------

/-- The second system has these clients of the first, in this order and no others. It has seen
their calls and agrees about the packets of their own. -/
structure Mirrors (mine : List ClientId) (own : PacketId → Prop) (s t : System σ) : Prop where
  nodup : mine.Nodup
  length : t.clients.length = mine.length
  clients : ∀ n c, mine[n]? = some c → t.client? n = s.client? c
  held : ∀ c ∈ mine, ∀ p, some p ∈ s.held c → own p
  memory : ∀ p, own p → t.memory p = s.memory p
  completions : t.completions = (s.completions.filter (·.client ∈ mine)).map (·.among mine)

namespace Mirrors

theorem idxOf (h : Mirrors mine own s t) (hn : mine[n]? = some c) : mine.idxOf c = n :=
  idxOf_of_getElem? h.nodup hn

theorem same (h : Mirrors mine own s t) (hn : mine[n]? = some c) (hj : mine[j]? = some d) :
    n = j ↔ c = d := by
  constructor
  · rintro rfl
    exact Option.some.inj (hn.symm.trans hj)
  · rintro rfl
    exact (h.idxOf hn).symm.trans (h.idxOf hj)

theorem known (h : Mirrors mine own s t) (hc : c ∈ mine) : c < s.clients.length := by
  obtain ⟨n, hn⟩ := List.mem_iff_getElem?.mp hc
  have hlt : n < t.clients.length := h.length ▸ (List.getElem?_eq_some_iff.mp hn).1
  have hk : s.client? c = some t.clients[n] :=
    (h.clients n c hn).symm.trans (List.getElem?_eq_getElem hlt)
  exact (List.getElem?_eq_some_iff.mp hk).1

theorem held_eq (h : Mirrors mine own s t) (hn : mine[n]? = some c) : t.held n = s.held c := by
  rw [System.held, h.clients n c hn, System.held]

theorem engine?_eq (h : Mirrors mine own s t) (hn : mine[n]? = some c) :
    t.engine? n = s.engine? c := by
  rw [engine?, h.clients n c hn, engine?]

theorem hold_eq (h : Mirrors mine own s t) (hn : mine[n]? = some c) : t.hold n = s.hold c := by
  rw [hold, h.clients n c hn, hold]
  cases hk : s.client? c with
  | none => rfl
  | some k =>
    refine List.map_congr_left fun x hx => ?_
    cases x with
    | none => rfl
    | some p =>
      have hp : own p := h.held c (List.mem_of_getElem? hn) p (held_of_client hk ▸ hx)
      exact congrArg some (h.memory p hp)

-- ---------------------------------------------------------------------------
-- What is done to both
-- ---------------------------------------------------------------------------

theorem modify (h : Mirrors mine own s t) (hn : mine[n]? = some c) {f : Client σ → Client σ}
    (lent : ∀ k p, some p ∈ (f k).held → some p ∈ k.held ∨ own p) :
    Mirrors mine own (s.modify c f) (t.modify n f) where
  nodup := h.nodup
  length := (List.length_modify ..).trans h.length
  clients j d hj := by
    rw [client?_modify, client?_modify, h.clients j d hj]
    exact if_congr (h.same hn hj) rfl rfl
  held d hd := by
    by_cases hc : c = d
    · subst hc
      exact held_modify lent (h.held c hd)
    · rw [System.held, client?_modify_other hc, ← System.held]
      exact h.held d hd
  memory := h.memory
  completions := h.completions

theorem log (h : Mirrors mine own s t) {e e' : Entry} (he : e.completion? = none)
    (he' : e'.completion? = none) : Mirrors mine own (s.log e) (t.log e') where
  nodup := h.nodup
  length := h.length
  clients := h.clients
  held := h.held
  memory := h.memory
  completions := by
    rw [completions_log, completions_log, he, he']
    simpa using h.completions

theorem settle (h : Mirrors mine own s t) (hn : mine[n]? = some c) (place : Place) (e : Ending) :
    Mirrors mine own (s.settle c place e) (t.settle n place e) := by
  cases hp : (s.held c)[place]?.join with
  | none =>
    rw [settle_of_no_loan hp, settle_of_no_loan (h.held_eq hn ▸ hp)]
    exact h
  | some p =>
    replace hp := Option.join_eq_some_iff.mp hp
    have hc : c ∈ mine := List.mem_of_getElem? hn
    have hown : own p := h.held c hc p (List.mem_of_getElem? hp)
    obtain ⟨k, hk, -, hclient, hmemory, hcalls⟩ := settle_of_loan hp e
    obtain ⟨k', hk', -, hclient', hmemory', hcalls'⟩ := settle_of_loan (h.held_eq hn ▸ hp) e
    obtain rfl : k' = k := Option.some.inj (hk'.symm.trans ((h.clients n c hn).trans hk))
    refine ⟨h.nodup, (length_settle t n place e).trans h.length, ?_, ?_, ?_, ?_⟩
    · intro j d hj
      rw [hclient, hclient', h.clients j d hj]
      exact if_congr (h.same hn hj) rfl rfl
    · intro d hd q hq
      rw [held_settle hp] at hq
      split at hq
      · exact h.held d hd q ((List.mem_or_eq_of_mem_set hq).resolve_right (by simp))
      · exact h.held d hd q hq
    · intro q hq
      rw [hmemory, hmemory', Memory.set, Memory.set, h.memory q hq, h.memory p hown]
    · have hcall : t.lastCall n k' place p e = (s.lastCall c k' place p e).among mine := by
        simp only [lastCall, Completion.among, h.idxOf hn, h.memory p hown]
      have hmine : (s.lastCall c k' place p e).client ∈ mine := hc
      rw [hcalls, hcalls', h.completions, List.filter_append, List.map_append, hcall]
      simp [hmine]

theorem settleAll (h : Mirrors mine own s t) (hn : mine[n]? = some c)
    (settlements : List Settlement) :
    Mirrors mine own (s.settleAll c settlements) (t.settleAll n settlements) := by
  induction settlements generalizing s t with
  | nil => exact h
  | cons x rest ih => exact ih (h.settle hn x.place x.ending)

theorem abandon (h : Mirrors mine own s t) (hn : mine[n]? = some c) :
    Mirrors mine own (s.abandon c) (t.abandon n) := by
  unfold System.abandon
  rw [h.clients n c hn]
  split
  · exact h
  · split
    · exact h.settleAll hn _
    · exact h

theorem react (h : Mirrors mine own s t) (hn : mine[n]? = some c) (engine : σ)
    (settlements : List Settlement) :
    Mirrors mine own (s.react c engine settlements) (t.react n engine settlements) :=
  (h.modify hn (f := fun k => { k with engine := some engine }) fun _ _ => .inl).settleAll hn
    settlements

theorem offer (h : Mirrors mine own s t) (hn : mine[n]? = some c) (hp : own p) (r : Reaction σ) :
    Mirrors mine own (s.offer c p r) (t.offer n p r) := by
  refine ((h.log rfl rfl).modify hn (f := (·.issue p)) fun k q hq => ?_).react hn r.engine
    r.settlements
  rcases List.mem_append.mp hq with hq | hq
  · exact .inl hq
  · exact .inr (Option.some.inj (List.mem_singleton.mp hq) ▸ hp)

section

variable [Engine σ]

theorem submit (h : Mirrors mine own s t) (hn : mine[n]? = some c) (hp : own p) :
    (t.submit n p).1 = (s.submit c p).1 ∧
      Mirrors mine own (s.submit c p).2 (t.submit n p).2 := by
  have hreaction : t.reaction? n p = s.reaction? c p := by
    rw [reaction?, reaction?, h.engine?_eq hn, h.hold_eq hn, h.memory p hp]
  cases hr : s.reaction? c p with
  | none =>
    have gone : s.engine? c = none := Option.map_eq_none_iff.mp hr
    rw [submit_of_closed gone, submit_of_closed ((h.engine?_eq hn).trans gone)]
    exact ⟨rfl, h⟩
  | some r =>
    have offered := h.offer hn hp r
    have hnext : t.nextPlace n = s.nextPlace c := congrArg List.length (h.held_eq hn)
    rw [submit_of_reaction hr, submit_of_reaction (hreaction.trans hr), hnext,
      offered.clients n c hn]
    cases r.verdict with
    | accepted => exact ⟨rfl, offered⟩
    | handedBack =>
      simp only
      split
      · exact ⟨rfl, offered.modify hn fun _ _ hq => .inl (List.dropLast_subset _ hq)⟩
      · exact ⟨rfl, offered⟩
    | panicked => exact ⟨rfl, offered.settle hn _ .drop⟩

theorem tearDown (h : Mirrors mine own s t) (hn : mine[n]? = some c) (engine : σ) :
    (t.tearDown n engine).1 = (s.tearDown c engine).1 ∧
      Mirrors mine own (s.tearDown c engine).2 (t.tearDown n engine).2 := by
  unfold System.tearDown
  rw [h.hold_eq hn]
  exact ⟨rfl, ((h.log rfl rfl).settleAll hn _).abandon hn⟩

theorem deinit (h : Mirrors mine own s t) (hn : mine[n]? = some c) :
    (t.deinit n).1 = (s.deinit c).1 ∧ Mirrors mine own (s.deinit c).2 (t.deinit n).2 := by
  cases he : s.engine? c with
  | none =>
    rw [deinit_of_closed he, deinit_of_closed ((h.engine?_eq hn).trans he)]
    exact ⟨rfl, h⟩
  | some engine =>
    have taken : Mirrors mine own (s.withoutEngine c) (t.withoutEngine n) :=
      h.modify hn fun _ _ => .inl
    obtain ⟨answer, torn⟩ := taken.tearDown hn engine
    rw [deinit_of_open he, deinit_of_open ((h.engine?_eq hn).trans he), answer]
    exact ⟨rfl, torn⟩

theorem release (h : Mirrors mine own s t) (hn : mine[n]? = some c) :
    (t.release n).1 = (s.release c).1 ∧ Mirrors mine own (s.release c).2 (t.release n).2 := by
  have less : Mirrors mine own (s.withoutReference c) (t.withoutReference n) :=
    h.modify hn fun _ _ => .inl
  have taken : Mirrors mine own ((s.withoutReference c).withoutEngine c)
      ((t.withoutReference n).withoutEngine n) := less.modify hn fun _ _ => .inl
  have hengine := less.engine?_eq hn
  unfold System.release
  simp only [less.clients n c hn]
  split
  · cases he : (s.withoutReference c).engine? c with
    | none =>
      rw [take_of_closed he, take_of_closed (hengine.trans he)]
      exact ⟨rfl, less⟩
    | some engine =>
      rw [take_of_open he, take_of_open (hengine.trans he)]
      exact taken.tearDown hn engine
  · exact ⟨rfl, less⟩

/-- What is done to a client that both have comes to the same in both. -/
theorem task (h : Mirrors mine own s t) (hn : mine[n]? = some c) (task : Task σ)
    (owned : task.Owned own) :
    (t.task n task).1 = (s.task c task).1 ∧
      Mirrors mine own (s.task c task).2 (t.task n task).2 := by
  cases task with
  | submit p =>
    obtain ⟨answer, submitted⟩ := h.submit hn owned
    exact ⟨congrArg some answer, submitted⟩
  | deinit =>
    obtain ⟨answer, closed⟩ := h.deinit hn
    exact ⟨congrArg some answer, closed⟩
  | retain | share => exact ⟨rfl, h.modify hn fun _ _ => .inl⟩
  | release =>
    obtain ⟨failed, released⟩ := h.release hn
    exact ⟨by simp only [System.task, failed], released⟩
  | work turn =>
    simp only [System.task, h.engine?_eq hn, h.hold_eq hn]
    split
    · exact ⟨rfl, h⟩
    · exact ⟨rfl, h.react hn _ _⟩
  | settle place ending => exact ⟨rfl, h.settle hn place ending⟩
  | unshare =>
    have fewer : Mirrors mine own (s.modify c fun k => { k with sharers := k.sharers - 1 })
        (t.modify n fun k => { k with sharers := k.sharers - 1 }) := h.modify hn fun _ _ => .inl
    exact ⟨rfl, fewer.abandon hn⟩

end

theorem add (h : Mirrors mine own s t) (called : ∀ x ∈ s.completions, x.client < s.clients.length)
    {k : Client σ} (held : k.held = []) :
    Mirrors (mine ++ [s.clients.length]) own (s.add k).2 (t.add k).2 := by
  have fresh : s.clients.length ∉ mine := fun hc => Nat.lt_irrefl _ (h.known hc)
  refine ⟨?_, ?_, ?_, ?_, h.memory, ?_⟩
  · rw [← List.concat_eq_append]
    exact h.nodup.concat fresh
  · simp [System.add, h.length]
  · intro j d hj
    rw [client?_add, client?_add, h.length]
    rcases getElem?_concat_eq_some hj with hj | ⟨rfl, rfl⟩
    · have hlt : j < mine.length := (List.getElem?_eq_some_iff.mp hj).1
      have hd : d < s.clients.length := h.known (List.mem_of_getElem? hj)
      rw [if_neg (Nat.ne_of_lt hlt), if_neg (Nat.ne_of_lt hd), h.clients j d hj]
    · rw [if_pos rfl, if_pos rfl]
  · intro c hc p hp
    rw [System.held, client?_add] at hp
    split at hp
    · simp [held] at hp
    · next hne =>
      exact h.held c ((List.mem_append.mp hc).resolve_right (by simpa using hne)) p hp
  · have hmine : ∀ x ∈ s.completions,
        (x.client ∈ mine ++ [s.clients.length] ↔ x.client ∈ mine) := by
      intro x hx
      simpa using fun same => absurd same (Nat.ne_of_lt (called x hx))
    have hfilter : s.completions.filter (·.client ∈ mine ++ [s.clients.length]) =
        s.completions.filter (·.client ∈ mine) :=
      List.filter_congr fun x hx => decide_eq_decide.mpr (hmine x hx)
    refine h.completions.trans ?_
    change _ = (s.completions.filter (·.client ∈ mine ++ [s.clients.length])).map _
    rw [hfilter]
    refine List.map_congr_left fun x hx => ?_
    have hin : x.client ∈ mine := by simpa using (List.mem_filter.mp hx).2
    simp only [Completion.among, List.idxOf_append_of_mem hin]

theorem fill (h : Mirrors mine own s t) (p : PacketId) (packet : Packet) :
    Mirrors mine own { s with memory := s.memory.set p packet }
      { t with memory := t.memory.set p packet } where
  nodup := h.nodup
  length := h.length
  clients := h.clients
  held := h.held
  memory q hq := by
    simp only [Memory.set, h.memory q hq]
  completions := h.completions

-- ---------------------------------------------------------------------------
-- What is done to others
-- ---------------------------------------------------------------------------

theorem localTo (h : Mirrors mine own s t) (away : c ∉ mine) (apart : ∀ p, own p → ¬ other p)
    (hu : LocalTo other c s u) : Mirrors mine own u t where
  nodup := h.nodup
  length := h.length
  clients n d hn := by
    have hd : c ≠ d := fun same => away (same ▸ List.mem_of_getElem? hn)
    rw [h.clients n d hn, hu.others d hd]
  held d hd p hp := by
    have hc : c ≠ d := fun same => away (same ▸ hd)
    rw [System.held, hu.others d hc] at hp
    exact h.held d hd p hp
  memory p hp := (h.memory p hp).trans (hu.memory p (apart p hp)).symm
  completions := by
    obtain ⟨called, hcalled, hclients⟩ := hu.completions
    have hnone : called.filter (·.client ∈ mine) = [] := by
      refine List.filter_eq_nil_iff.mpr fun x hx => ?_
      simpa [hclients x hx] using away
    rw [h.completions, hcalled, List.filter_append, hnone, List.append_nil]

theorem add_other (h : Mirrors mine own s t) (k : Client σ) : Mirrors mine own (s.add k).2 t where
  nodup := h.nodup
  length := h.length
  clients n c hn := by
    rw [client?_add, if_neg (Nat.ne_of_lt (h.known (List.mem_of_getElem? hn)))]
    exact h.clients n c hn
  held c hc := by
    rw [System.held, client?_add, if_neg (Nat.ne_of_lt (h.known hc))]
    exact h.held c hc
  memory := h.memory
  completions := h.completions

theorem fill_other (h : Mirrors mine own s t) (apart : ¬ own p) (packet : Packet) :
    Mirrors mine own { s with memory := s.memory.set p packet } t where
  nodup := h.nodup
  length := h.length
  clients := h.clients
  held := h.held
  memory q hq := by
    have hne : q ≠ p := fun same => apart (same ▸ hq)
    simp only [Memory.set, if_neg hne, h.memory q hq]
  completions := h.completions

end Mirrors

end System

end Courier
