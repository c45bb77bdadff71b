import Courier.Proofs.Client.Closing

/-!
# Engines seen otherwise

Whatever a client does with its packets it does without a look at its engine, which alone
decides what happens to them. So engines can be replaced by what a function makes of them, and all
that does not ask an engine goes on as before.
-/

namespace Courier

variable {σ τ : Type}

def Client.map (f : σ → τ) (k : Client σ) : Client τ := { k with engine := k.engine.map f }

namespace System

def map (f : σ → τ) (s : System σ) : System τ where
  memory := s.memory
  clients := s.clients.map (·.map f)
  journal := s.journal

variable (f : σ → τ) (s : System σ) (c d : ClientId)

@[simp] theorem client?_map : (s.map f).client? c = (s.client? c).map (·.map f) :=
  List.getElem?_map

@[simp] theorem memory_map : (s.map f).memory = s.memory := rfl

theorem held_map : (s.map f).held c = s.held c := by
  cases h : s.client? c <;> simp [held, h, Client.map]

theorem inFlight_map : (s.map f).inFlight c = s.inFlight c := by
  cases h : s.client? c <;> simp [inFlight, h, Client.map]

theorem hold_map : (s.map f).hold c = s.hold c := by
  cases h : s.client? c <;> simp [hold, h, Client.map, Client.hold]

theorem engine?_map : (s.map f).engine? c = (s.engine? c).map f := by
  cases h : s.client? c <;> simp [engine?, h, Client.map]

-- ---------------------------------------------------------------------------
-- What is done without the engine
-- ---------------------------------------------------------------------------

theorem map_modify {g : Client σ → Client σ} {g' : Client τ → Client τ}
    (same : ∀ k, (g k).map f = g' (k.map f)) :
    (s.modify c g).map f = (s.map f).modify c g' := by
  have hclients : (s.clients.modify c g).map (·.map f) =
      (s.clients.map (·.map f)).modify c g' := by
    apply List.ext_getElem?
    intro n
    simp only [List.getElem?_map, List.getElem?_modify]
    split
    · cases s.clients[n]? <;> simp [same]
    · cases s.clients[n]? <;> rfl
  simp only [map, modify, hclients]

theorem map_log (e : Entry) : (s.log e).map f = (s.map f).log e := rfl

theorem map_add (k : Client σ) : (s.add k).2.map f = ((s.map f).add (k.map f)).2 := by
  simp [add, map]

theorem map_callBack (place : Place) (p : PacketId) (r : Report) :
    (s.callBack c place p r).map f = (s.map f).callBack c place p r := by
  cases h : s.client? c <;> simp [callBack, h, Client.map, map_log]

theorem map_deliver (place : Place) (p : PacketId) (r : Report) :
    (s.deliver c place p r).map f = (s.map f).deliver c place p r := by
  have hcount : ((s.fill p r).modify c (·.countDown)).map f =
      ((s.map f).fill p r).modify c (·.countDown) :=
    map_modify f (s.fill p r) c fun _ => rfl
  rw [deliver, map_callBack, hcount, deliver]

theorem map_settle (place : Place) (e : Ending) :
    (s.settle c place e).map f = (s.map f).settle c place e := by
  have hpacket : ((s.map f).client? c).bind (·.packet? place) =
      (s.client? c).bind (·.packet? place) := by
    cases h : s.client? c <;> simp [h, Client.map, Client.packet?]
  unfold settle
  rw [hpacket]
  cases (s.client? c).bind (·.packet? place) with
  | none => rfl
  | some p =>
    have hvacate : (s.modify c (·.vacate place)).map f = (s.map f).modify c (·.vacate place) :=
      map_modify f s c fun _ => rfl
    simp only [map_deliver, hvacate]

theorem map_settleAll (settlements : List Settlement) :
    (s.settleAll c settlements).map f = (s.map f).settleAll c settlements := by
  induction settlements generalizing s with
  | nil => rfl
  | cons x rest ih => exact (ih (s.settle c x.place x.ending)).trans (by rw [map_settle]; rfl)

theorem map_abandon : (s.abandon c).map f = (s.map f).abandon c := by
  unfold abandon
  cases h : s.client? c with
  | none => simp [h]
  | some k =>
    have hsame : ((k.map f).engine.isNone ∧ (k.map f).sharers = 0) ↔
        (k.engine.isNone ∧ k.sharers = 0) := by
      simp [Client.map]
    simp only [client?_map, h, Option.map_some, hsame]
    split
    · exact map_settleAll f s c _
    · rfl

theorem map_react (engine : σ) (settlements : List Settlement) :
    (s.react c engine settlements).map f = (s.map f).react c (f engine) settlements := by
  have hengine : (s.modify c fun k => { k with engine := some engine }).map f =
      (s.map f).modify c fun k => { k with engine := some (f engine) } :=
    map_modify f s c fun _ => rfl
  rw [react, map_settleAll, hengine, react]

theorem map_offer (p : PacketId) (r : Reaction σ) :
    (s.offer c p r).map f = (s.map f).offer c p ⟨f r.engine, r.settlements, r.verdict⟩ := by
  have hissue : ((s.log (.offered c p)).modify c (·.issue p)).map f =
      ((s.map f).log (.offered c p)).modify c (·.issue p) :=
    map_modify f (s.log (.offered c p)) c fun _ => rfl
  rw [offer, map_react, hissue, offer]

theorem map_withoutEngine : (s.withoutEngine c).map f = (s.map f).withoutEngine c :=
  map_modify f s c fun _ => rfl

end System

end Courier
