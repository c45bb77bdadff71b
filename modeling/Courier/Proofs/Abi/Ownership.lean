import Courier.Abi
import Courier.Proofs.Client.Requests
import Courier.Proofs.Engine.Steady
import Courier.Proofs.Lists
import Courier.Proofs.Registry

/-!
# References to a client

A client belongs to all who have a reference to it: the registry and whoever in the host got one
there, or has built the client and not registered it. The engine is shut down by the first of
them to close the client, or with the last reference, and in either case once
(`Ownership.Run.shutdown_once`).
-/

namespace Courier

open Courier.System (Answer Op)

namespace System

variable {σ : Type} [Launch σ] {K : Steady σ} {s t u : System σ} {c d : ClientId}

def closed? (s : System σ) (c : ClientId) : Option Bool := (s.client? c).map (·.isClosed)

omit [Launch σ] in
theorem closed?_eq_some_false :
    s.closed? c = some false ↔ ∃ engine, s.engine? c = some engine := by
  cases hk : s.client? c <;>
    simp [closed?, engine?, hk, Client.isClosed, Option.isSome_iff_exists]

omit [Launch σ] in
theorem closed?_congr (h : (t.client? c).map (·.bare) = (s.client? c).map (·.bare)) :
    t.closed? c = s.closed? c := by
  have hbare (u : System σ) : u.closed? c = ((u.client? c).map (·.bare)).map (·.isClosed) := by
    rw [closed?, Option.map_map]
    rfl
  rw [hbare, h, ← hbare]

/-- What goes on without a call. The engines of other clients may do as they like. -/
def Op.Quiet (K : Steady σ) (c : ClientId) : Op σ → Prop
  | .fill .. | .settle .. | .share _ | .unshare _ => True
  | .work d engine _ => d = c → K.Valid engine
  | _ => False

/-- Nothing that the host could tell has happened to the client, and its engine is as sound as it
was. -/
structure Unmoved (K : Steady σ) (c : ClientId) (s t : System σ) : Prop where
  references : ∀ d, t.references d = s.references d
  closed : t.closed? c = s.closed? c
  valid : (∀ engine, s.engine? c = some engine → K.Valid engine) →
    ∀ engine, t.engine? c = some engine → K.Valid engine

namespace Unmoved

theorem trans (first : Unmoved K c s t) (second : Unmoved K c t u) : Unmoved K c s u where
  references d := (second.references d).trans (first.references d)
  closed := second.closed.trans first.closed
  valid h := second.valid (first.valid h)

theorem of_bare (h : ∀ d, (t.client? d).map (·.bare) = (s.client? d).map (·.bare)) :
    Unmoved K c s t where
  references d := references_congr (lasting_references.congr (h d))
  closed := closed?_congr (h c)
  valid valid engine hengine := valid engine (engine?_congr (h c) ▸ hengine)

theorem of_modify (d : ClientId) {f : Client σ → Client σ}
    (references : ∀ k, (f k).references = k.references) (engine : ∀ k, (f k).engine = k.engine) :
    Unmoved K c s (s.modify d f) where
  references _ := references_congr (Lasting.modify references)
  closed := Lasting.modify fun k => by rw [Client.isClosed, Client.isClosed, engine]
  valid valid e he := valid e (engine?_modify engine ▸ he)

theorem react (hs : (s.engine? d).isSome) {engine : σ}
    (valid : d = c → (∀ old, s.engine? c = some old → K.Valid old) → K.Valid engine)
    (settlements : List Settlement) : Unmoved K c s (s.react d engine settlements) := by
  refine trans (t := s.modify d fun k => { k with engine := some engine }) ?_
    (of_bare (bare_settleAll _ d settlements))
  obtain ⟨old, hold⟩ := Option.isSome_iff_exists.mp hs
  obtain ⟨k, hk, hold⟩ := client_of_engine hold
  refine ⟨fun _ => references_congr (Lasting.modify fun _ => rfl), ?_, ?_⟩
  · by_cases hd : d = c
    · subst hd
      simp [closed?, hk, hold, Client.isClosed]
    · simp [closed?, hd]
  · intro former e he
    by_cases hd : d = c
    · subst hd
      obtain rfl : engine = e := by simpa [engine?, hk] using he
      exact valid rfl former
    · exact former e (by simpa [engine?, hd] using he)

theorem offer {r : Reaction σ} (hr : s.reaction? d p = some r) : Unmoved K c s (s.offer d p r) := by
  obtain ⟨engine, hengine, rfl⟩ := Option.map_eq_some_iff.mp hr
  have logged : Unmoved K c s (s.log (.offered d p)) := of_bare fun _ => rfl
  have issued := logged.trans (of_modify d (f := (·.issue p)) (fun _ => rfl) fun _ => rfl)
  have same (e : ClientId) :
      ((s.log (.offered d p)).modify d (·.issue p)).engine? e = s.engine? e :=
    engine?_modify fun _ => rfl
  refine issued.trans (react (by simp [same, hengine]) ?_ _)
  rintro rfl former
  exact K.submit_valid _ _ _ (former engine ((same d).trans hengine))

theorem submit (s : System σ) (d : ClientId) (p : PacketId) : Unmoved K c s (s.submit d p).2 := by
  have hs := submission s d p
  generalize s.submit d p = out at hs
  cases hs with
  | closed => exact of_bare fun _ => rfl
  | accepted hr => exact offer hr
  | handedBack hr => exact (offer hr).trans (of_modify d (fun _ => rfl) fun _ => rfl)
  | panicked hr => exact (offer hr).trans (of_bare (bare_settle _ d _ _))

theorem behind (s : System σ) {op : Op σ} (quiet : op.Quiet K c) :
    Unmoved K c s (s.act op).2 ∧ (s.act op).2.requests c = s.requests c := by
  cases op with
  | start | submit | deinit | retain | release => cases quiet
  | fill p packet => exact ⟨of_bare fun _ => rfl, rfl⟩
  | settle d place ending =>
    exact ⟨of_bare (bare_settle s d place ending), requests_settle s d place ending⟩
  | share d => exact ⟨of_modify d (fun _ => rfl) fun _ => rfl, rfl⟩
  | unshare d =>
    have fewer : Unmoved K c s (s.modify d fun k => { k with sharers := k.sharers - 1 }) :=
      of_modify d (fun _ => rfl) fun _ => rfl
    exact ⟨fewer.trans (of_bare (bare_abandon _ d)), requests_abandon _ d⟩
  | work d engine settlements =>
    simp only [System.act]
    split
    · next hs =>
      exact ⟨react hs (fun hd _ => quiet hd) settlements, requests_settleAll _ d settlements⟩
    · exact ⟨of_bare fun _ => rfl, rfl⟩

theorem deinit_other (hd : d ≠ c) (s : System σ) : Unmoved K c s (s.deinit d).2 where
  references _ := references_deinit s d
  closed := by rw [closed?, client?_deinit_other hd, ← closed?]
  valid valid engine hengine := by
    rw [engine?, client?_deinit_other hd] at hengine
    exact valid engine hengine

end Unmoved

omit [Launch σ] in
theorem closed?_recount (s : System σ) (d : ClientId) (f : Nat → Nat) :
    (s.recount d f).closed? c = s.closed? c :=
  Lasting.modify fun _ => rfl

omit [Launch σ] in
theorem engine?_eq_none : s.engine? c = none ↔ s.closed? c ≠ some false := by
  rw [← not_iff_not, not_not, closed?_eq_some_false, ← ne_eq, Option.ne_none_iff_exists']

theorem closed?_deinit (s : System σ) (c : ClientId) :
    (s.deinit c).2.closed? c = (s.closed? c).map fun _ => true := by
  cases he : s.engine? c with
  | none =>
    rw [deinit_of_closed he]
    cases hk : s.client? c with
    | none => simp [closed?, hk]
    | some k =>
      have he : k.engine = none := by simpa [engine?, hk] using he
      simp [closed?, hk, Client.isClosed, he]
  | some engine =>
    obtain ⟨k, hk, -⟩ := client_of_engine he
    rw [deinit_of_open he]
    refine (closed?_congr (bare_tearDown _ c engine c)).trans ?_
    simp [closed?, hk, Client.isClosed]

end System

namespace Abi

variable {σ : Type} [Engine σ]

/-- Puts a reference into the registry. The client that was there under the same key is given
up. -/
def enrol (d : Abi σ) (c : ClientId) : Abi σ :=
  let enrolled := { d with registry := (d.registry.register c).2 }
  match d.registry.entries.lookup d.registry.next with
  | none => enrolled
  | some old => (enrolled.release old).2

theorem add_eq_enrol {d : Abi σ} (fresh : d.registry.next ∉ d.registry.keys) (k : Client σ) :
    (d.add k).2 = { d with system := (d.system.add k).2 }.enrol (d.system.add k).1 := by
  have missing : d.registry.entries.lookup d.registry.next = none := by
    rw [← Registry.erase_of_not_mem fresh]
    exact Registry.lookup_erase _ _
  simp only [enrol, missing]
  rfl

end Abi

/-- The registered clients, and the references that the host has: one to a client for each time that
it is listed. -/
structure Ownership (σ : Type) where
  abi : Abi σ := {}
  owned : List ClientId := []

namespace Ownership

inductive Move (σ : Type) where
  | build (cluster : Cluster) (endpoints : List Address.Endpoint) (mode : Mode) (context : UInt64)
      (engine : σ)
  | register (c : ClientId)
  | get (key : UInt64)
  | remove (key : UInt64)
  | submit (c : ClientId) (p : PacketId)
  | deinit (c : ClientId)
  | drop (c : ClientId)
  /-- What goes on without a call. -/
  | behind (op : Op σ)

variable {σ : Type} [Launch σ] {K : Steady σ} {h t : Ownership σ} {c d : ClientId}

def withSystem (h : Ownership σ) (system : System σ) : Ownership σ :=
  { h with abi := { h.abi with system } }

def act (h : Ownership σ) : Move σ → Option Answer × Ownership σ
  | .build cluster endpoints mode context engine =>
    let (c, system) := h.abi.system.add (.ofEngine cluster endpoints mode context engine)
    (none, { abi := { h.abi with system }, owned := h.owned ++ [c] })
  | .register c => (none, { abi := h.abi.enrol c, owned := h.owned.erase c })
  | .get key =>
    let (found, abi) := h.abi.find key
    (none, { abi, owned := h.owned ++ found.toList })
  | .remove key =>
    let (found, abi) := h.abi.remove key
    (none, { abi, owned := h.owned ++ found.toList })
  | .submit c p => (some (h.abi.system.submit c p).1, h.withSystem (h.abi.system.submit c p).2)
  | .deinit c => (some (h.abi.system.deinit c).1, h.withSystem (h.abi.system.deinit c).2)
  | .drop c => (none, { abi := (h.abi.release c).2, owned := h.owned.erase c })
  | .behind op => (none, h.withSystem (h.abi.system.act op).2)

/-- Someone has a reference to the client. -/
def Referenced (h : Ownership σ) (c : ClientId) : Prop :=
  c ∈ h.owned ∨ c ∈ h.abi.registry.clients

instance (h : Ownership σ) (c : ClientId) : Decidable (h.Referenced c) :=
  inferInstanceAs (Decidable (_ ∨ _))

def references (h : Ownership σ) (c : ClientId) : Nat :=
  h.owned.count c + h.abi.registry.clients.count c

omit [Launch σ] in
theorem references_ne_zero : h.references c ≠ 0 ↔ h.Referenced c := by
  simp only [references, Referenced, ← List.count_pos_iff]
  omega

/-- A call on a client takes a reference to it. The engine of the one client does not fail. -/
def Permits (K : Steady σ) (c : ClientId) (h : Ownership σ) : Move σ → Prop
  | .build _ _ _ _ engine => h.abi.system.clients.length = c → K.Valid engine
  | .register d | .submit d _ | .deinit d | .drop d => d ∈ h.owned
  | .get _ | .remove _ => True
  | .behind op => op.Quiet K c

abbrev Trace (σ : Type) := List (Move σ × Option Answer)

inductive Run (K : Steady σ) (c : ClientId) (h : Ownership σ) : Trace σ → Ownership σ → Prop
  | nil : Run K c h [] h
  | snoc {trace t} (run : Run K c h trace t) (move : Move σ) (ok : t.Permits K c move) :
      Run K c h (trace ++ [(move, (t.act move).1)]) (t.act move).2

def deinit? (c : ClientId) : Move σ × Option Answer → Option Answer
  | (.deinit d, answer) => if d = c then answer else none
  | _ => none

def deinits (c : ClientId) (trace : Trace σ) : List Answer := trace.filterMap (deinit? c)

def offered? (c : ClientId) : Move σ × Option Answer → Option PacketId
  | (.submit d p, some answer) =>
    if d = c ∧ answer ≠ .value (.error .closed) then some p else none
  | _ => none

/-- The packets that were submitted to the client while it was not closed. -/
def offered (c : ClientId) (trace : Trace σ) : List PacketId := trace.filterMap (offered? c)

-- ---------------------------------------------------------------------------
-- What a run keeps
-- ---------------------------------------------------------------------------

/-- The first deinit goes well and the later ones find the client closed. -/
def Answered (answers : List Answer) : Prop :=
  answers = [] ∨
    ∃ later, answers = .value (.ok ()) :: List.replicate later (.value (.error .closed))

/-- The references counted are those that there are, and a client is open as long as it has not
been closed and one of them is left. -/
structure RefCounted (K : Steady σ) (c : ClientId) (trace : Trace σ) (h : Ownership σ) : Prop where
  keys : h.abi.registry.keys.Nodup
  references : ∀ d, h.abi.system.references d = h.references d
  valid : ∀ engine, h.abi.system.engine? c = some engine → K.Valid engine
  closed : h.abi.system.closed? c = some false ↔ deinits c trace = [] ∧ h.Referenced c
  young : h.abi.system.closed? c = none → deinits c trace = []
  answered : Answered (deinits c trace)
  requests : h.abi.system.requests c = (offered c trace).map .submit ++
    if h.abi.system.closed? c = some true then [.shutdown] else []

variable {trace : Trace σ} {entry : Move σ × Option Answer}

omit [Launch σ] in
theorem deinits_snoc (c : ClientId) (trace : Trace σ) (entry : Move σ × Option Answer) :
    deinits c (trace ++ [entry]) = deinits c trace ++ (deinit? c entry).toList := by
  cases h : deinit? c entry <;> simp [deinits, h]

omit [Launch σ] in
theorem offered_snoc (c : ClientId) (trace : Trace σ) (entry : Move σ × Option Answer) :
    offered c (trace ++ [entry]) = offered c trace ++ (offered? c entry).toList := by
  cases h : offered? c entry <;> simp [offered, h]

namespace RefCounted

theorem referenced (x : RefCounted K c trace h) (d : ClientId) :
    h.abi.system.references d ≠ 0 ↔ h.Referenced d := by
  rw [x.references, references_ne_zero]

theorem closed?_ne_none (x : RefCounted K c trace h) (isReferenced : h.Referenced d) :
    h.abi.system.closed? d ≠ none := by
  obtain ⟨k, hk⟩ := System.client_of_references ((x.referenced d).mpr isReferenced)
  simp [System.closed?, hk]

theorem answered_deinit (x : RefCounted K c trace h) (isReferenced : h.Referenced c) :
    Answered (deinits c trace ++ [(h.abi.system.deinit c).1]) := by
  cases engine : h.abi.system.engine? c with
  | none =>
    have closed := System.engine?_eq_none.mp engine
    rw [ne_eq, x.closed] at closed
    rcases x.answered with none | ⟨later, answers⟩
    · exact absurd ⟨none, isReferenced⟩ closed
    · refine .inr ⟨later + 1, ?_⟩
      rw [System.deinit_of_closed engine, answers, List.replicate_succ']
      rfl
  | some engine' =>
    have isOpen := System.closed?_eq_some_false.mpr ⟨engine', engine⟩
    have calm : ((h.abi.system.withoutEngine c).tearDown c engine').1 = false :=
      K.shutdown_calm engine' _ (x.valid engine' engine)
    refine .inr ⟨0, ?_⟩
    rw [(x.closed.mp isOpen).1, System.deinit_of_open engine, calm]
    rfl

theorem neutral (x : RefCounted K c trace h) (entry : Move σ × Option Answer)
    (noDeinit : deinit? c entry = none) (noOffer : offered? c entry = none) :
    RefCounted K c (trace ++ [entry]) h := by
  have deinits := deinits_snoc c trace entry
  have offered := offered_snoc c trace entry
  rw [noDeinit, Option.toList_none, List.append_nil] at deinits
  rw [noOffer, Option.toList_none, List.append_nil] at offered
  exact ⟨x.keys, x.references, x.valid, deinits ▸ x.closed, deinits ▸ x.young,
    deinits ▸ x.answered, offered ▸ x.requests⟩

theorem requests_deinit (x : RefCounted K c trace h) :
    (h.abi.system.deinit c).2.requests c = (offered c trace).map .submit ++
      if (h.abi.system.deinit c).2.closed? c = some true then [.shutdown] else [] := by
  rw [System.requests_deinit, System.closed?_deinit, x.requests]
  have engine := System.engine?_eq_none (s := h.abi.system) (c := c)
  cases closed : h.abi.system.closed? c with
  | none => simp [engine, closed]
  | some closed' => cases closed' <;> simp [engine, closed]

theorem unmoved (x : RefCounted K c trace h)
    (unmoved : System.Unmoved K c h.abi.system t.abi.system)
    (requests : t.abi.system.requests c = h.abi.system.requests c)
    (keys : t.abi.registry.keys.Nodup) (references : ∀ d, t.references d = h.references d) :
    RefCounted K c trace t where
  keys := keys
  references d := by rw [unmoved.references, x.references, references]
  valid := unmoved.valid x.valid
  closed := by
    rw [unmoved.closed, x.closed, ← references_ne_zero, ← references_ne_zero, references]
  young := unmoved.closed ▸ x.young
  answered := x.answered
  requests := by rw [requests, x.requests, unmoved.closed]

theorem recount (x : RefCounted K c trace h) (hd : h.references d ≠ 0) {f : Nat → Nat}
    (left : d = c → f (h.references d) ≠ 0) (system : t.abi.system = h.abi.system.recount d f)
    (keys : t.abi.registry.keys.Nodup)
    (references : ∀ e, t.references e = if d = e then f (h.references e) else h.references e) :
    RefCounted K c trace t := by
  have closed : t.abi.system.closed? c = h.abi.system.closed? c := by
    rw [system, System.closed?_recount]
  have engine : t.abi.system.engine? c = h.abi.system.engine? c := by
    rw [system]
    exact System.engine?_modify fun _ => rfl
  have referenced : t.Referenced c ↔ h.Referenced c := by
    rw [← references_ne_zero, ← references_ne_zero, references]
    split
    · next hdc => simp [← hdc, hd, left hdc]
    · rfl
  refine ⟨keys, ?_, engine ▸ x.valid, ?_, closed ▸ x.young, x.answered, ?_⟩
  · intro e
    rw [system, System.references_recount (x.references d ▸ hd), x.references, references]
  · rw [closed, x.closed, referenced]
  · rw [closed, ← x.requests, system, System.requests_modify]

theorem release (x : RefCounted K c trace h) (hd : h.references d ≠ 0)
    (system : t.abi.system = (h.abi.system.release d).2) (keys : t.abi.registry.keys.Nodup)
    (references : ∀ e, t.references e = if d = e then h.references e - 1 else h.references e) :
    RefCounted K c trace t := by
  by_cases more : 1 < h.references d
  · rw [System.release_of_more (x.references d ▸ more)] at system
    exact x.recount hd (f := (· - 1)) (fun _ => Nat.sub_ne_zero_of_lt more) system keys references
  have one : h.references d = 1 :=
    Nat.le_antisymm (Nat.le_of_not_lt more) (Nat.pos_of_ne_zero hd)
  have last : h.abi.system.references d = 1 := (x.references d).trans one
  rw [System.release_of_last last] at system
  have references' (e : ClientId) : t.abi.system.references e = t.references e := by
    have still := System.references_deinit h.abi.system d (c := d)
    rw [system, System.references_recount (still.trans last ▸ Nat.one_ne_zero),
      System.references_deinit, x.references, references]
  by_cases hdc : d = c
  · subst hdc
    have gone : t.references d = 0 := by rw [references, if_pos rfl, one]
    have closed : t.abi.system.closed? d = (h.abi.system.closed? d).map fun _ => true := by
      rw [system, System.closed?_recount, System.closed?_deinit]
    refine ⟨keys, references', ?_, ?_, ?_, x.answered, ?_⟩
    · intro engine hengine
      have same : t.abi.system.engine? d = (h.abi.system.deinit d).2.engine? d := by
        rw [system]
        exact System.engine?_modify fun _ => rfl
      rw [same, System.engine?_deinit] at hengine
      cases hengine
    · rw [closed, ← references_ne_zero, gone]
      simp
    · rw [closed, Option.map_eq_none_iff]
      exact x.young
    · rw [system, System.requests_modify, System.closed?_recount]
      exact x.requests_deinit
  · have requests : (h.abi.system.deinit d).2.requests c = h.abi.system.requests c := by
      simp [System.requests_deinit, hdc]
    have y : RefCounted K c trace (h.withSystem (h.abi.system.deinit d).2) :=
      x.unmoved (.deinit_other hdc _) requests x.keys fun _ => rfl
    exact y.recount hd (f := (· - 1)) (fun same => absurd same hdc) system keys references

theorem submit (x : RefCounted K c trace h) (d : ClientId) (p : PacketId) :
    RefCounted K c (trace ++ [(.submit d p, (h.act (.submit d p)).1)]) (h.act (.submit d p)).2 := by
  simp only [act]
  have unmoved : System.Unmoved K c h.abi.system
      (h.withSystem (h.abi.system.submit d p).2).abi.system := .submit _ d p
  have requests : (h.withSystem (h.abi.system.submit d p).2).abi.system.requests c = _ :=
    System.requests_submit h.abi.system d p
  by_cases offer : d = c ∧ (h.abi.system.submit d p).1 ≠ .value (.error .closed)
  · obtain ⟨rfl, answer⟩ := offer
    have isOpen : h.abi.system.closed? d = some false := by
      by_contra closed
      rw [← ne_eq, ← System.engine?_eq_none] at closed
      exact answer (by rw [System.submit_of_closed closed])
    have offered := offered_snoc d trace (.submit d p, some (h.abi.system.submit d p).1)
    have deinits := deinits_snoc d trace (.submit d p, some (h.abi.system.submit d p).1)
    simp only [offered?, deinit?, answer, ne_eq, not_false_eq_true, and_self, if_true,
      Option.toList_some, Option.toList_none, List.append_nil] at offered deinits
    simp only [answer, ne_eq, not_false_eq_true, and_self, if_true] at requests
    refine ⟨x.keys, fun e => (unmoved.references e).trans (x.references e), unmoved.valid x.valid,
      ?_, ?_, deinits ▸ x.answered, ?_⟩
    · rw [unmoved.closed, deinits]
      exact x.closed
    · rw [unmoved.closed, deinits]
      exact x.young
    · rw [requests, x.requests, unmoved.closed, isOpen, offered]
      simp
  · rw [if_neg offer, List.append_nil] at requests
    have y : RefCounted K c trace (h.withSystem (h.abi.system.submit d p).2) :=
      x.unmoved unmoved requests x.keys fun _ => rfl
    refine y.neutral (.submit d p, _) rfl ?_
    simp only [offered?, if_neg offer]

theorem deinit (x : RefCounted K c trace h) (owned : d ∈ h.owned) :
    RefCounted K c (trace ++ [(.deinit d, (h.act (.deinit d)).1)]) (h.act (.deinit d)).2 := by
  have requests := System.requests_deinit (c := c) h.abi.system d
  simp only [act]
  by_cases hdc : d = c
  · subst hdc
    have isReferenced : h.Referenced d := .inl owned
    have deinits := deinits_snoc d trace (.deinit d, some (h.abi.system.deinit d).1)
    have offered := offered_snoc d trace (.deinit d, some (h.abi.system.deinit d).1)
    have closed := System.closed?_deinit h.abi.system d
    have gone := System.engine?_deinit h.abi.system d
    simp only [deinit?, offered?, if_true, Option.toList_some, Option.toList_none,
      List.append_nil] at deinits offered
    refine ⟨x.keys, fun e => (System.references_deinit _ d).trans (x.references e), ?_, ?_, ?_, ?_,
      ?_⟩
    · intro engine hengine
      cases gone.symm.trans hengine
    · simp [withSystem, closed, deinits]
    · rw [withSystem, closed, Option.map_eq_none_iff]
      exact fun absent => absurd absent (x.closed?_ne_none isReferenced)
    · rw [deinits]
      exact x.answered_deinit isReferenced
    · rw [offered]
      exact x.requests_deinit
  · simp only [hdc, false_and, if_false, List.append_nil] at requests
    have y : RefCounted K c trace (h.withSystem (h.abi.system.deinit d).2) :=
      x.unmoved (.deinit_other hdc _) requests x.keys fun _ => rfl
    refine y.neutral (.deinit d, _) ?_ rfl
    simp only [deinit?, if_neg hdc]

theorem build (x : RefCounted K c trace h) (engine : σ)
    (valid : h.abi.system.clients.length = c → K.Valid engine) :
    RefCounted K c trace (h.act (.build cluster endpoints mode context engine)).2 := by
  let k := Client.ofEngine cluster endpoints mode context engine
  let t := (h.act (.build cluster endpoints mode context engine)).2
  have added (e : ClientId) : t.abi.system.client? e =
      if e = h.abi.system.clients.length then some k else h.abi.system.client? e :=
    System.client?_add h.abi.system k e
  have fresh : h.abi.system.client? h.abi.system.clients.length = none := by
    simp [System.client?]
  have references (e : ClientId) : t.references e =
      h.references e + if e = h.abi.system.clients.length then 1 else 0 := by
    simp only [t, act, System.add, Ownership.references, List.count_append, List.count_singleton,
      beq_iff_eq, eq_comm (a := e)]
    omega
  have counted (e : ClientId) : t.abi.system.references e = t.references e := by
    rw [references, ← x.references, System.references, added]
    split
    · next he => simp [he, System.references, fresh, k, Client.ofEngine]
    · rfl
  by_cases hc : c = h.abi.system.clients.length
  · have closed : t.abi.system.closed? c = some false := by
      rw [System.closed?, added, if_pos hc]
      rfl
    have young : h.abi.system.closed? c = none := by rw [System.closed?, hc, fresh, Option.map_none]
    refine ⟨x.keys, counted, ?_, ?_, ?_, x.answered, ?_⟩
    · intro e he
      rw [System.engine?, added, if_pos hc] at he
      exact Option.some.inj he ▸ valid hc.symm
    · refine iff_of_true closed ⟨x.young young, ?_⟩
      rw [← references_ne_zero, references, if_pos hc]
      exact Nat.succ_ne_zero _
    · intro absent
      cases closed.symm.trans absent
    · have requests := x.requests
      rw [young, if_neg (by simp), List.append_nil] at requests
      rw [closed, if_neg (by simp), List.append_nil]
      exact requests
  · have same : t.abi.system.client? c = h.abi.system.client? c := (added c).trans (if_neg hc)
    have closed : t.abi.system.closed? c = h.abi.system.closed? c := congrArg _ same
    refine ⟨x.keys, counted, ?_, ?_, closed ▸ x.young, x.answered, closed ▸ x.requests⟩
    · intro e he
      exact x.valid e ((congrArg (Option.bind · _) same).symm.trans he)
    · rw [closed, x.closed, ← references_ne_zero, ← references_ne_zero, references, if_neg hc,
        Nat.add_zero]

theorem register (x : RefCounted K c trace h) (owned : d ∈ h.owned) :
    RefCounted K c trace (h.act (.register d)).2 := by
  have keys := Registry.nodup_register x.keys d
  have moved (e : ClientId) :
      (h.owned.erase d).count e + (h.abi.registry.register d).2.clients.count e +
          (if h.abi.registry.entries.lookup h.abi.registry.next = some e then 1 else 0) =
        h.references e := by
    have counted := Registry.count_clients_erase x.keys h.abi.registry.next e
    have present := List.count_pos_iff.mpr owned
    simp only [Ownership.references, Registry.clients_register, List.count_append, counted,
      List.count_erase, List.count_singleton, beq_iff_eq]
    split
    · next he =>
      subst he
      omega
    · omega
  simp only [Ownership.act, Abi.enrol]
  cases evicted : h.abi.registry.entries.lookup h.abi.registry.next with
  | none =>
    refine x.unmoved (.of_bare fun _ => rfl) rfl keys ?_
    intro e
    have moved := moved e
    rw [evicted, if_neg (by simp), Nat.add_zero] at moved
    exact moved
  | some old =>
    have registered := Registry.mem_clients_of_lookup evicted
    refine x.release (references_ne_zero.mpr (.inr registered)) rfl keys ?_
    intro e
    have moved := moved e
    rw [evicted] at moved
    simp only [Option.some.injEq] at moved
    change (h.owned.erase d).count e + (h.abi.registry.register d).2.clients.count e = _
    split at moved
    · next he =>
      rw [if_pos he]
      omega
    · next he =>
      rw [if_neg he]
      omega

theorem get (x : RefCounted K c trace h) (key : UInt64) :
    RefCounted K c trace (h.act (.get key)).2 := by
  simp only [act, Abi.find]
  cases found : h.abi.registry.get? key with
  | none => simpa using x
  | some d =>
    have registered := Registry.mem_clients_of_get? found
    refine x.recount (f := (· + 1)) (references_ne_zero.mpr (.inr registered))
      (fun _ => Nat.succ_ne_zero _) rfl x.keys ?_
    intro e
    simp only [Ownership.references, Option.toList_some, List.count_append, List.count_singleton,
      beq_iff_eq]
    split <;> omega

theorem remove (x : RefCounted K c trace h) (key : UInt64) :
    RefCounted K c trace (h.act (.remove key)).2 := by
  simp only [act, Abi.remove, Registry.remove_eq]
  by_cases hkey : key = 0
  · subst hkey
    simpa using x
  · rw [if_neg hkey, Registry.get?_of_ne hkey]
    refine x.unmoved (.of_bare fun _ => rfl) rfl (Registry.nodup_erase x.keys key) ?_
    intro e
    have counted := Registry.count_clients_erase x.keys key e
    simp only [Ownership.references, List.count_append, count_toList]
    omega

theorem drop (x : RefCounted K c trace h) (owned : d ∈ h.owned) :
    RefCounted K c trace (h.act (.drop d)).2 := by
  refine x.release (references_ne_zero.mpr (.inl owned)) rfl x.keys ?_
  intro e
  have counted := List.count_pos_iff.mpr owned
  simp only [Ownership.act, Ownership.references, Abi.release, List.count_erase, beq_iff_eq]
  split
  · next he => exact he ▸ (Nat.sub_add_comm counted).symm
  · rfl

theorem act (x : RefCounted K c trace h) (move : Move σ) (ok : h.Permits K c move) :
    RefCounted K c (trace ++ [(move, (h.act move).1)]) (h.act move).2 := by
  cases move with
  | build cluster endpoints mode context engine =>
    exact (x.build engine ok).neutral (.build ..,  _) rfl rfl
  | register d => exact (x.register ok).neutral (.register d, _) rfl rfl
  | get key => exact (x.get key).neutral (.get key, _) rfl rfl
  | remove key => exact (x.remove key).neutral (.remove key, _) rfl rfl
  | submit d p => exact x.submit d p
  | deinit d => exact x.deinit ok
  | drop d => exact (x.drop ok).neutral (.drop d, _) rfl rfl
  | behind op =>
    obtain ⟨unmoved, requests⟩ := System.Unmoved.behind h.abi.system ok
    have y : RefCounted K c trace (h.withSystem (h.abi.system.act op).2) :=
      x.unmoved unmoved requests x.keys fun _ => rfl
    exact y.neutral (.behind op, _) rfl rfl

end RefCounted

theorem refCounted_empty (m : Memory) :
    RefCounted K c [] { abi := { system := { memory := m } } } where
  keys := .nil
  references _ := rfl
  valid := nofun
  closed := by simp [System.closed?, System.client?, Referenced, Registry.clients]
  young _ := rfl
  answered := .inl rfl
  requests := rfl

theorem Run.refCounted {m : Memory}
    (run : Run K c { abi := { system := { memory := m } } } trace t) :
    RefCounted K c trace t := by
  induction run with
  | nil => exact refCounted_empty m
  | snoc _ move ok ih => exact ih.act move ok

-- ---------------------------------------------------------------------------
-- Closed before or not
-- ---------------------------------------------------------------------------

/-- Moves by which nothing happens to the client but that references to it are given up. -/
def Move.Yields (c : ClientId) : Move σ → Prop
  | .remove _ => True
  | .drop d => d = c
  | _ => False

/-- Giving up a reference and closing the client can change places. -/
theorem RefCounted.act_deinit (x : RefCounted K c trace h) {move : Move σ} (yields : move.Yields c)
    (ok : h.Permits K c move) :
    (h.act (.deinit c)).2.act move =
      ((h.act move).1, ((h.act move).2.act (.deinit c)).2) := by
  cases move with
  | remove key => rfl
  | drop d =>
    obtain rfl : d = c := yields
    have counted : h.abi.system.references d ≠ 0 := (x.referenced d).mpr (.inl ok)
    have same :
        ((h.abi.system.deinit d).2.release d).2 = ((h.abi.system.release d).2.deinit d).2 := by
      have kept := System.references_deinit h.abi.system d (c := d)
      by_cases more : 1 < h.abi.system.references d
      · rw [System.release_of_more more, System.release_of_more (kept.symm ▸ more),
          System.deinit_recount]
      · have last : h.abi.system.references d = 1 :=
          Nat.le_antisymm (Nat.le_of_not_lt more) (Nat.pos_of_ne_zero counted)
        -- the engine has gone with the last reference
        rw [System.release_deinit last, System.release_of_last last, System.deinit_recount,
          System.deinit_of_closed (System.engine?_deinit _ d)]
    exact congrArg (fun system => (none, { h.withSystem system with owned := h.owned.erase d }))
      same
  | _ => cases yields

theorem Run.deinit (x : RefCounted K c trace h) (run : Run K c h more t)
    (yields : ∀ entry ∈ more, entry.1.Yields c) :
    RefCounted K c (trace ++ more) t ∧
      Run K c (h.act (.deinit c)).2 more (t.act (.deinit c)).2 := by
  induction run with
  | nil => exact ⟨(List.append_nil trace).symm ▸ x, .nil⟩
  | @snoc more t run move ok ih =>
    obtain ⟨earlier, last⟩ := List.forall_mem_append.mp yields
    obtain ⟨y, closing⟩ := ih earlier
    have yields : move.Yields c := last _ List.mem_cons_self
    have step := y.act_deinit yields ok
    refine ⟨?_, ?_⟩
    · rw [← List.append_assoc]
      exact y.act move ok
    · have ok' : (t.act (.deinit c)).2.Permits K c move := by
        cases move with
        | remove | drop => exact ok
        | _ => cases yields
      have next := closing.snoc move ok'
      rwa [step] at next

-- ---------------------------------------------------------------------------
-- The law of references
-- ---------------------------------------------------------------------------

/-- The client has been closed, or the last reference to it is gone. -/
def Over (h : Ownership σ) (trace : Trace σ) (c : ClientId) : Prop :=
  deinits c trace ≠ [] ∨ ¬ h.Referenced c

instance (h : Ownership σ) (trace : Trace σ) (c : ClientId) : Decidable (h.Over trace c) :=
  inferInstanceAs (Decidable (_ ∨ _))

/-- In whatever order a client is registered, found, removed, called and given up: its engine gets
the packets submitted, and is shut down once, by the first deinit or else with the last reference.
The first deinit goes well and the others find the client closed, as it is from then on, and so
does every later submit, which reaches nobody. Where the last references are given up, a deinit
beforehand leads to the same end. -/
theorem Run.shutdown_once {m : Memory}
    (run : Run K c { abi := { system := { memory := m } } } trace t)
    (built : t.abi.system.client? c = some k) :
    (k.isClosed = true ↔ t.Over trace c) ∧
    t.abi.system.requests c =
      (offered c trace).map .submit ++ (if t.Over trace c then [.shutdown] else []) ∧
    Answered (deinits c trace) ∧
    (deinits c trace ≠ [] → ∀ p, t.act (.submit c p) = (some (.value (.error .closed)), t)) ∧
    ∀ more u, Run K c t more u → (∀ entry ∈ more, entry.1.Yields c) → ¬ u.Referenced c →
      Run K c (t.act (.deinit c)).2 more u := by
  have x := run.refCounted
  have closed : t.abi.system.closed? c = some k.isClosed := by rw [System.closed?, built]; rfl
  have closing : k.isClosed = true ↔ t.Over trace c := by
    have isOpen := x.closed
    rw [closed, Option.some.injEq] at isOpen
    rw [← Bool.not_eq_false, isOpen, Over, not_and_or]
  have shut (u : Ownership σ) (gone : u.abi.system.closed? c ≠ some false) (p : PacketId) :
      u.act (.submit c p) = (some (.value (.error .closed)), u) ∧ (u.act (.deinit c)).2 = u := by
    have gone := System.engine?_eq_none.mpr gone
    simp only [act, System.submit_of_closed gone, System.deinit_of_closed gone]
    exact ⟨rfl, rfl⟩
  refine ⟨closing, ?_, x.answered, ?_, ?_⟩
  · rw [x.requests, closed]
    simp only [Option.some.injEq, closing]
  · intro deinited p
    exact (shut t (fun isOpen => deinited (x.closed.mp isOpen).1) p).1
  · intro more u rest yields gone
    obtain ⟨y, after⟩ := Run.deinit x rest yields
    have same := (shut u (fun isOpen => gone (y.closed.mp isOpen).2) 0).2
    rwa [same] at after

/-- An echoing client that was registered, found once and taken out, and has got a packet. -/
def shared : Ownership Service :=
  let moves : List (Move Service) :=
    [.build .zero [] .echo 7 (.echo (Echo.start {} .native)), .register 0, .get 1, .remove 1,
      .submit 0 3]
  moves.foldl (fun h move => (h.act move).2) {}

theorem shutdown_once_shared :
    let closed := (shared.act (.deinit 0)).2
    let left := ((shared.act (.drop 0)).2.act (.drop 0)).2
    shared.owned = [0, 0] ∧
    (∃ trace, Run Service.steady 0 {} trace closed ∧ deinits 0 trace = [.value (.ok ())] ∧
      closed.abi.system.requests 0 = [.submit 3, .shutdown]) ∧
    (∀ p, closed.act (.submit 0 p) = (some (.value (.error .closed)), closed)) ∧
    left.abi.system.completions.length = 1 ∧
    Run Service.steady 0 closed [(.drop 0, none), (.drop 0, none)] left := by
  intro closed left
  have one : (0 : ClientId) ∈ [0] := List.mem_singleton_self 0
  have two : (0 : ClientId) ∈ [0, 0] := List.mem_cons_self
  obtain ⟨trace, run, packets, none⟩ : ∃ trace, Run Service.steady 0 {} trace shared ∧
      offered 0 trace = [3] ∧ deinits 0 trace = [] := by
    have built := (Run.nil (K := Service.steady) (c := 0) (h := {})).snoc
      (.build .zero [] .echo 7 (.echo (Echo.start {} .native))) fun _ => trivial
    have found := (built.snoc (.register 0) one).snoc (.get 1) trivial
    exact ⟨_, (found.snoc (.remove 1) trivial).snoc (.submit 0 3) two, rfl, rfl⟩
  have opened : shared.abi.system.client? 0 ≠ .none := by decide
  have shut : closed.abi.system.client? 0 ≠ .none := by decide
  obtain ⟨k, hk⟩ := Option.ne_none_iff_exists'.mp opened
  obtain ⟨k', hk'⟩ := Option.ne_none_iff_exists'.mp shut
  have deinited := run.snoc (.deinit 0) two
  obtain ⟨-, asked, -, refused, -⟩ := Run.shutdown_once deinited hk'
  obtain ⟨-, -, -, -, torn⟩ := Run.shutdown_once run hk
  have drops : Run Service.steady 0 shared [(.drop 0, .none), (.drop 0, .none)] left :=
    ((Run.nil (h := shared)).snoc (.drop 0) two).snoc (.drop 0) one
  have gone : ¬ left.Referenced 0 := by decide
  have answered : Ownership.deinits 0 (trace ++ [(.deinit 0, (shared.act (.deinit 0)).1)]) =
      [.value (.ok ())] := by
    rw [deinits_snoc, none]
    rfl
  have ended : closed.Over (trace ++ [(.deinit 0, (shared.act (.deinit 0)).1)]) 0 :=
    .inl (by rw [answered]; exact List.cons_ne_nil _ _)
  have offered :
      Ownership.offered 0 (trace ++ [(.deinit 0, (shared.act (.deinit 0)).1)]) = [3] := by
    rw [offered_snoc, packets]
    rfl
  refine ⟨by decide, ⟨_, deinited, answered, ?_⟩, ?_, by decide, ?_⟩
  · rw [asked, if_pos ended, offered]
    rfl
  · exact refused (by rw [answered]; exact List.cons_ne_nil _ _)
  · refine torn _ left drops ?_ gone
    intro entry hentry
    rcases List.mem_cons.mp hentry with rfl | hentry
    · rfl
    · rw [List.mem_singleton.mp hentry]
      rfl

end Ownership

end Courier
