import Courier.Proofs.Client.Runs
import Mathlib.Logic.Function.Basic

/-!
# Deliveries under way

A delivery fills the packet, counts it out and then calls the host back. Here each of these is a
step of its own, between any other steps, of other deliveries, of submits and of the host, and
the count can be read in any state on the way.

The count is that of the packets whose deliveries have not counted them out (`Accounted`). So it
lacks those whose calls are about to begin or are running. A count of zero does not tell the host
that the calls for all its packets have returned (`delivering_uncounted`), only that no packet is
further away from its return than that (`Run.counting`).
-/

namespace Courier

theorem count_zipIdx_concat (issued : List PacketId) (p : PacketId) (loan : Loan) :
    (issued ++ [p]).zipIdx.count loan =
      issued.zipIdx.count loan + if (p, issued.length) == loan then 1 else 0 := by
  simp [List.zipIdx_append, List.count_singleton]

inductive Stage where
  | taken
  | written
  | counted
  /-- The call back is running. -/
  | calling
deriving DecidableEq, Repr

structure Delivery where
  client : ClientId
  place : Place
  packet : PacketId
  report : Report
  stage : Stage := .taken
deriving DecidableEq, Repr

namespace Delivery

def loan (x : Delivery) : Loan := (x.packet, x.place)

/-- The packet is still counted. -/
def isCounted (x : Delivery) : Bool := x.stage = .taken || x.stage = .written

def loansOf (c : ClientId) (such : Delivery → Bool) (deliveries : List Delivery) : List Loan :=
  (deliveries.filter fun x => x.client == c && such x).map (·.loan)

variable {c : ClientId} {such : Delivery → Bool}

theorem loansOf_append (front back : List Delivery) :
    loansOf c such (front ++ back) = loansOf c such front ++ loansOf c such back := by
  simp [loansOf]

theorem loansOf_singleton (x : Delivery) :
    loansOf c such [x] = if x.client = c ∧ such x then [x.loan] else [] := by
  by_cases h : x.client = c ∧ such x = true <;> simp_all [loansOf]

theorem loansOf_middle (c : ClientId) (such : Delivery → Bool) {x : Delivery} (h : such x = true)
    (front back : List Delivery) : (loansOf c such (front ++ x :: back)).Perm
      ((if x.client = c then [x.loan] else []) ++ loansOf c such (front ++ back)) := by
  have hx : loansOf c such [x] = if x.client = c then [x.loan] else [] := by
    simp only [loansOf_singleton, h, and_true]
  rw [← hx, ← loansOf_append]
  exact (List.perm_middle.filter _).map _

theorem loansOf_middle_other (c : ClientId) (such : Delivery → Bool) {x : Delivery}
    (h : such x = false) (front back : List Delivery) :
    loansOf c such (front ++ x :: back) = loansOf c such (front ++ back) := by
  simp [loansOf, h]

end Delivery

/-- The clients with the submits and the deliveries that are under way. -/
structure Deliveries (σ : Type) where
  system : System σ := {}
  underway : List Delivery := []
  returned : List Delivery := []
  /-- A client has one submit at a time. -/
  offers : ClientId → Option PacketId := fun _ => none
  accepted : ClientId → List Loan := fun _ => []

namespace Deliveries

variable {σ : Type} {t u : Deliveries σ} {c d : ClientId} {p q : PacketId} {place : Place}

def offer (t : Deliveries σ) (c : ClientId) (p : PacketId) : Deliveries σ :=
  { t with
    system := (t.system.log (.offered c p)).modify c (·.issue p)
    offers := Function.update t.offers c (some p) }

def comeBack (t : Deliveries σ) (c : ClientId) : Deliveries σ :=
  { t with offers := Function.update t.offers c none }

def accept (t : Deliveries σ) (c : ClientId) (p : PacketId) : Deliveries σ :=
  { t.comeBack c with
    accepted := Function.update t.accepted c
      (t.accepted c ++ [(p, (t.system.held c).length - 1)]) }

def handBack (t : Deliveries σ) (c : ClientId) : Deliveries σ :=
  { t.comeBack c with system := t.system.modify c (·.withdraw) }

def take (t : Deliveries σ) (c : ClientId) (place : Place) (p : PacketId) (e : Ending) :
    Deliveries σ :=
  { t with
    system := t.system.modify c (·.vacate place)
    underway := t.underway ++ [⟨c, place, p, e.report, .taken⟩] }

/-- What can happen next, on whatever thread. -/
inductive Step (t : Deliveries σ) : Deliveries σ → Prop
  | start (k : Client σ) : Step t { t with system := (t.system.add k.bare).2 }
  | host (p : PacketId) (packet : Packet) :
      Step t { t with system := { t.system with memory := t.system.memory.set p packet } }
  /-- An engine goes on or is taken, or somebody comes or goes. -/
  | change (c : ClientId) (f : Client σ → Client σ) (held : ∀ k, (f k).held = k.held)
      (count : ∀ k, (f k).inFlight = k.inFlight) : Step t { t with system := t.system.modify c f }
  | shutdown (c : ClientId) : Step t { t with system := t.system.log (.released c) }
  | offer {c : ClientId} (p : PacketId) {k : Client σ} (client : t.system.client? c = some k)
      (free : t.offers c = none) : Step t (t.offer c p)
  | accept {c : ClientId} {p : PacketId} (offered : t.offers c = some p) : Step t (t.accept c p)
  | handBack {c : ClientId} {p q : PacketId} (offered : t.offers c = some p)
      (kept : (t.system.held c).getLast? = some (some q)) : Step t (t.handBack c)
  | fail {c : ClientId} {p : PacketId} (offered : t.offers c = some p) : Step t (t.comeBack c)
  /-- Whoever holds a packet ends it. -/
  | take {c : ClientId} {p : PacketId} {place : Place} (loan : (p, place) ∈ t.system.loans c)
      (e : Ending) : Step t (t.take c place p e)
  | write {front back : List Delivery} {x : Delivery} (underway : t.underway = front ++ x :: back)
      (stage : x.stage = .taken) :
      Step t { t with
        system := t.system.fill x.packet x.report
        underway := front ++ { x with stage := .written } :: back }
  | count {front back : List Delivery} {x : Delivery} (underway : t.underway = front ++ x :: back)
      (stage : x.stage = .written) :
      Step t { t with
        system := t.system.modify x.client (·.countDown)
        underway := front ++ { x with stage := .counted } :: back }
  | call {front back : List Delivery} {x : Delivery} (underway : t.underway = front ++ x :: back)
      (stage : x.stage = .counted) :
      Step t { t with
        system := t.system.callBack x.client x.place x.packet x.report
        underway := front ++ { x with stage := .calling } :: back }
  | finish {front back : List Delivery} {x : Delivery} (underway : t.underway = front ++ x :: back)
      (stage : x.stage = .calling) :
      Step t { t with underway := front ++ back, returned := t.returned ++ [x] }

inductive Run (t : Deliveries σ) : Deliveries σ → Prop
  | nil : Run t t
  | snoc {u v} (run : Run t u) (step : Step u v) : Run t v

-- ---------------------------------------------------------------------------
-- Where the packets are
-- ---------------------------------------------------------------------------

/-- The loans that are open, and those whose deliveries have not counted them out. -/
def counted (t : Deliveries σ) (c : ClientId) : List Loan :=
  t.system.loans c ++ Delivery.loansOf c (·.isCounted) t.underway

/-- The calls for these are about to begin, or they are running. -/
def delivering (t : Deliveries σ) (c : ClientId) : List Loan :=
  Delivery.loansOf c (!·.isCounted) t.underway

/-- The calls for these have returned. -/
def delivered (t : Deliveries σ) (c : ClientId) : List Loan :=
  Delivery.loansOf c (fun _ => true) t.returned

/-- The account of a client to which the packets were issued, in this order. -/
structure Accounted (t : Deliveries σ) (c : ClientId) (issued : List PacketId) : Prop where
  length_held : (t.system.held c).length = issued.length
  /-- What was issued is counted, or is being delivered, or was delivered. -/
  fates : ∀ loan,
    (t.counted c).count loan + (t.delivering c).count loan + (t.delivered c).count loan =
      issued.zipIdx.count loan
  inFlight : t.system.inFlight c = (t.counted c).length
  accepted : ∀ loan ∈ t.accepted c, loan ∈ issued.zipIdx
  /-- The packet that is being offered is the last one issued, and not accepted yet. -/
  offered : ∀ p, t.offers c = some p →
    ∃ front, issued = front ++ [p] ∧ ∀ loan ∈ t.accepted c, loan ∈ front.zipIdx

namespace Accounted

variable {issued : List PacketId}

theorem congr (h : t.Accounted c issued) (held : u.system.held c = t.system.held c)
    (count : u.system.inFlight c = t.system.inFlight c) (counted : u.counted c = t.counted c)
    (delivering : u.delivering c = t.delivering c) (delivered : u.delivered c = t.delivered c)
    (accepted : u.accepted c = t.accepted c) (offers : u.offers c = t.offers c) :
    u.Accounted c issued where
  length_held := by rw [held, h.length_held]
  fates := by rw [counted, delivering, delivered]; exact h.fates
  inFlight := by rw [count, counted, h.inFlight]
  accepted := by rw [accepted]; exact h.accepted
  offered := by rw [offers, accepted]; exact h.offered

/-- An account does not depend on what happens without a delivery and to other clients. -/
theorem unchanged (h : t.Accounted c issued) (held : u.system.held c = t.system.held c)
    (count : u.system.inFlight c = t.system.inFlight c) (underway : u.underway = t.underway)
    (returned : u.returned = t.returned) (accepted : u.accepted c = t.accepted c)
    (offers : u.offers c = t.offers c) : u.Accounted c issued := by
  refine h.congr held count ?_ ?_ ?_ accepted offers
  · rw [counted, counted, System.loans, held, underway, System.loans]
  · rw [delivering, underway, delivering]
  · rw [delivered, returned, delivered]

theorem offer (h : t.Accounted c issued) (client : t.system.client? c = some k) (p : PacketId) :
    (t.offer c p).Accounted c (issued ++ [p]) := by
  have held : (t.offer c p).system.held c = t.system.held c ++ [some p] :=
    System.held_issue (s := t.system.log (.offered c p)) client p
  have hcounted : ((t.offer c p).counted c).Perm ((p, issued.length) :: t.counted c) := by
    have loans : (t.offer c p).system.loans c = t.system.loans c ++ [(p, issued.length)] := by
      rw [System.loans, held, loansOf_concat, h.length_held]
      rfl
    rw [counted, loans, List.append_assoc]
    exact List.perm_middle
  refine ⟨?_, ?_, ?_, ?_, ?_⟩
  · rw [held, List.length_append, List.length_append, h.length_held]
    rfl
  · intro loan
    have hbefore := h.fates loan
    have hdelivering : (t.offer c p).delivering c = t.delivering c := rfl
    have hdelivered : (t.offer c p).delivered c = t.delivered c := rfl
    rw [count_zipIdx_concat, hcounted.count_eq, List.count_cons, hdelivering, hdelivered]
    omega
  · have count : (t.offer c p).system.inFlight c = t.system.inFlight c + 1 :=
      System.inFlight_issue (s := t.system.log (.offered c p)) client p
    rw [count, hcounted.length_eq, h.inFlight, List.length_cons]
    rfl
  · intro loan hloan
    rw [List.zipIdx_append]
    exact List.mem_append_left _ (h.accepted loan hloan)
  · intro q hq
    obtain rfl : p = q := by simpa [Deliveries.offer] using hq
    exact ⟨issued, rfl, h.accepted⟩

theorem accept (h : t.Accounted c issued) (offered : t.offers c = some p) :
    (t.accept c p).Accounted c issued := by
  obtain ⟨front, rfl, -⟩ := h.offered p offered
  refine ⟨h.length_held, h.fates, h.inFlight, ?_, ?_⟩
  · intro loan hloan
    have hlength : (t.system.held c).length - 1 = front.length := by
      rw [h.length_held, List.length_append, List.length_singleton, Nat.add_sub_cancel]
    simp only [Deliveries.accept, Function.update_self, hlength, List.mem_append] at hloan
    rcases hloan with hloan | hloan
    · exact h.accepted loan hloan
    · obtain rfl := List.mem_singleton.mp hloan
      simp [List.zipIdx_append]
  · intro q hq
    simp [Deliveries.accept, comeBack] at hq

theorem comeBack (h : t.Accounted c issued) : (t.comeBack c).Accounted c issued := by
  refine ⟨h.length_held, h.fates, h.inFlight, h.accepted, ?_⟩
  intro q hq
  simp [Deliveries.comeBack] at hq

theorem issued_of_loan (h : t.Accounted c issued) (loan : (p, place) ∈ t.system.loans c) :
    issued[place]? = some p := by
  have hcounted : 0 < (t.counted c).count (p, place) :=
    List.count_pos_iff.mpr (List.mem_append_left _ loan)
  have hissued : 0 < issued.zipIdx.count (p, place) := by
    rw [← h.fates]
    omega
  exact List.mem_zipIdx_iff_getElem?.mp (List.count_pos_iff.mp hissued)

theorem handBack (h : t.Accounted c issued) (offered : t.offers c = some p)
    (kept : (t.system.held c).getLast? = some (some q)) :
    ∃ front, (t.handBack c).Accounted c front := by
  obtain ⟨front, rfl, hfront⟩ := h.offered p offered
  obtain ⟨rest, hheld⟩ := List.getLast?_eq_some_iff.mp kept
  have hlength : rest.length = front.length := by
    have hlength := h.length_held
    rw [hheld] at hlength
    simpa using hlength
  have hloans : t.system.loans c = loansOf rest ++ [(q, front.length)] := by
    rw [System.loans, hheld, loansOf_concat, hlength]
    rfl
  obtain rfl : p = q := by
    have hlast : (q, front.length) ∈ t.system.loans c := by simp [hloans]
    simpa using h.issued_of_loan hlast
  have hlast : (t.system.held c)[rest.length]? = some (some p) := by rw [hheld]; simp
  obtain ⟨k, client⟩ := System.client_of_held hlast
  have held : (t.handBack c).system.held c = rest := by
    rw [Deliveries.handBack, System.held_withdraw, hheld, List.dropLast_concat]
  have hcounted : (t.counted c).Perm ((p, front.length) :: (t.handBack c).counted c) := by
    rw [counted, hloans, counted, System.loans, held, List.append_assoc]
    exact List.perm_middle
  refine ⟨front, ?_, ?_, ?_, ?_, ?_⟩
  · rw [held, hlength]
  · intro loan
    have hbefore := h.fates loan
    have hdelivering : (t.handBack c).delivering c = t.delivering c := rfl
    have hdelivered : (t.handBack c).delivered c = t.delivered c := rfl
    rw [count_zipIdx_concat, hcounted.count_eq, List.count_cons] at hbefore
    rw [hdelivering, hdelivered]
    omega
  · have count : (t.handBack c).system.inFlight c = t.system.inFlight c - 1 :=
      System.inFlight_withdraw client
    rw [count, h.inFlight, hcounted.length_eq, List.length_cons]
    omega
  · exact hfront
  · intro q hq
    simp [Deliveries.handBack, Deliveries.comeBack] at hq

theorem take (h : t.Accounted c issued) (loan : (p, place) ∈ t.system.loans c) (e : Ending) :
    (t.take c place p e).Accounted c issued := by
  have hfull := mem_loansOf.mp loan
  obtain ⟨k, client⟩ := System.client_of_held hfull
  have held : (t.take c place p e).system.held c = (t.system.held c).set place none := by
    simp [Deliveries.take, System.held, client, Client.vacate]
  have hcounted : ((t.take c place p e).counted c).Perm (t.counted c) := by
    have hset := loansOf_perm_set hfull
    rw [counted, System.loans, held, counted, System.loans]
    refine .trans ?_ (hset.symm.append_right _)
    rw [Deliveries.take, Delivery.loansOf_append, Delivery.loansOf_singleton, if_pos ⟨rfl, rfl⟩,
      ← List.append_assoc]
    exact List.perm_append_singleton (p, place) _
  refine ⟨?_, ?_, ?_, h.accepted, h.offered⟩
  · rw [held, List.length_set, h.length_held]
  · intro loan
    have hdelivering : (t.take c place p e).delivering c = t.delivering c := by
      simp [delivering, Deliveries.take, Delivery.loansOf_append, Delivery.loansOf_singleton,
        Delivery.isCounted]
    rw [hcounted.count_eq, hdelivering]
    exact h.fates loan
  · have count : (t.take c place p e).system.inFlight c = t.system.inFlight c :=
      System.inFlight_modify_same fun _ => rfl
    rw [count, hcounted.length_eq, h.inFlight]

theorem take_other (h : t.Accounted c issued) (hd : d ≠ c) (p : PacketId) (place : Place)
    (e : Ending) : (t.take d place p e).Accounted c issued := by
  have held := System.held_modify_other (s := t.system) hd (·.vacate place)
  have hsame (such : Delivery → Bool) :
      Delivery.loansOf c such (t.take d place p e).underway =
        Delivery.loansOf c such t.underway := by
    rw [Deliveries.take, Delivery.loansOf_append, Delivery.loansOf_singleton,
      if_neg (fun h => hd h.1), List.append_nil]
  refine h.congr held (System.inFlight_modify_other hd _) ?_ (hsame _) rfl rfl rfl
  rw [counted, hsame, System.loans, show (t.take d place p e).system.held c = _ from held]
  rfl

variable {front back : List Delivery} {x : Delivery} {s : System σ}

theorem proceed (h : t.Accounted c issued) (underway : t.underway = front ++ x :: back)
    {stage : Stage} (same : { x with stage }.isCounted = x.isCounted)
    (held : s.held c = t.system.held c) (count : s.inFlight c = t.system.inFlight c) :
    { t with system := s, underway := front ++ { x with stage } :: back }.Accounted c issued := by
  have hsame (such : Delivery → Bool) (hsuch : such { x with stage } = such x) :
      Delivery.loansOf c such (front ++ { x with stage } :: back) =
        Delivery.loansOf c such (front ++ x :: back) := by
    simp only [Delivery.loansOf, List.filter_append, List.filter_cons, hsuch]
    split <;> simp [Delivery.loan]
  refine h.congr held count ?_ ?_ rfl rfl rfl
  · rw [counted, counted, underway, System.loans, held, hsame (·.isCounted) same]
    rfl
  · rw [delivering, delivering, underway]
    exact hsame (!·.isCounted) (congrArg _ same)

theorem countOut (h : t.Accounted c issued) (underway : t.underway = front ++ x :: back)
    (stage : x.stage = .written) :
    { t with
      system := t.system.modify x.client (·.countDown)
      underway := front ++ { x with stage := .counted } :: back }.Accounted c issued := by
  set u : Deliveries σ := { t with
    system := t.system.modify x.client (·.countDown)
    underway := front ++ { x with stage := .counted } :: back } with hu
  let own : List Loan := if x.client = c then [x.loan] else []
  have held : u.system.held c = t.system.held c := System.held_modify_same fun _ => rfl
  have hbefore : x.isCounted = true := by simp [Delivery.isCounted, stage]
  have hafter : { x with stage := .counted }.isCounted = false := rfl
  have hcounted : (t.counted c).Perm (own ++ u.counted c) := by
    rw [counted, counted, System.loans, System.loans, held, underway, hu,
      Delivery.loansOf_middle_other c (·.isCounted) hafter]
    exact ((Delivery.loansOf_middle c (·.isCounted) hbefore front back).append_left _).trans
      (List.perm_append_comm_assoc ..)
  have hdelivering : (u.delivering c).Perm (own ++ t.delivering c) := by
    have hbefore : (!x.isCounted) = false := by rw [hbefore]; rfl
    rw [delivering, delivering, underway, hu,
      Delivery.loansOf_middle_other c (!·.isCounted) hbefore front back]
    exact Delivery.loansOf_middle c (!·.isCounted) (x := { x with stage := .counted }) rfl front
      back
  refine ⟨?_, ?_, ?_, h.accepted, h.offered⟩
  · rw [held, h.length_held]
  · intro loan
    have hdelivered : u.delivered c = t.delivered c := rfl
    rw [← h.fates loan, hcounted.count_eq, hdelivering.count_eq, hdelivered, List.count_append,
      List.count_append]
    omega
  · have hlength := hcounted.length_eq
    rw [List.length_append] at hlength
    rw [← Int.natCast_inj, Int.natCast_add, ← h.inFlight] at hlength
    by_cases hx : x.client = c
    · simp only [own, hx, if_true, List.length_singleton] at hlength
      cases client : t.system.client? c with
      | none =>
        simp only [System.inFlight, client, Option.elim_none] at hlength
        omega
      | some k =>
        have count : u.system.inFlight c = t.system.inFlight c - 1 := by
          simp [hu, hx, System.inFlight, client, Client.countDown]
        omega
    · have count : u.system.inFlight c = t.system.inFlight c := System.inFlight_modify_other hx _
      simp only [own, hx, if_false, List.length_nil] at hlength
      omega

theorem finish (h : t.Accounted c issued) (underway : t.underway = front ++ x :: back)
    (stage : x.stage = .calling) :
    { t with underway := front ++ back, returned := t.returned ++ [x] }.Accounted c issued := by
  have hbefore : x.isCounted = false := by simp [Delivery.isCounted, stage]
  set u : Deliveries σ := { t with underway := front ++ back, returned := t.returned ++ [x] }
  let own : List Loan := if x.client = c then [x.loan] else []
  have hcounted : u.counted c = t.counted c := by
    rw [counted, counted, underway, Delivery.loansOf_middle_other c (·.isCounted) hbefore]
  have hdelivering : (t.delivering c).Perm (own ++ u.delivering c) := by
    rw [delivering, delivering, underway]
    exact Delivery.loansOf_middle c (!·.isCounted) (by simp [hbefore]) front back
  have hdelivered : u.delivered c = t.delivered c ++ own := by
    rw [delivered, Delivery.loansOf_append, Delivery.loansOf_singleton]
    simp only [and_true, own, delivered]
  refine ⟨h.length_held, ?_, ?_, h.accepted, h.offered⟩
  · intro loan
    rw [← h.fates loan, hcounted, hdelivering.count_eq, hdelivered, List.count_append,
      List.count_append]
    omega
  · rw [hcounted]
    exact h.inFlight

end Accounted

theorem Step.accounted (step : t.Step u) (h : t.Accounted c issued) :
    ∃ issued, u.Accounted c issued := by
  cases step with
  | start k =>
    exact ⟨issued,
      h.unchanged (System.held_add _ c rfl) (System.inFlight_add _ c rfl) rfl rfl rfl rfl⟩
  | host p packet => exact ⟨issued, h.unchanged rfl rfl rfl rfl rfl rfl⟩
  | change d f held count =>
    exact ⟨issued, h.unchanged (System.held_modify_same held) (System.inFlight_modify_same count)
      rfl rfl rfl rfl⟩
  | shutdown d => exact ⟨issued, h.unchanged rfl rfl rfl rfl rfl rfl⟩
  | @offer d p k client free =>
    by_cases hd : d = c
    · subst hd
      exact ⟨_, h.offer client p⟩
    · exact ⟨issued, h.unchanged (System.held_modify_other hd _) (System.inFlight_modify_other hd _)
        rfl rfl rfl (Function.update_of_ne (Ne.symm hd) ..)⟩
  | @accept d p offered =>
    by_cases hd : d = c
    · subst hd
      exact ⟨_, h.accept offered⟩
    · exact ⟨issued, h.unchanged rfl rfl rfl rfl (Function.update_of_ne (Ne.symm hd) ..)
        (Function.update_of_ne (Ne.symm hd) ..)⟩
  | @handBack d p q offered kept =>
    by_cases hd : d = c
    · subst hd
      exact h.handBack offered kept
    · exact ⟨issued, h.unchanged (System.held_modify_other hd _) (System.inFlight_modify_other hd _)
        rfl rfl rfl (Function.update_of_ne (Ne.symm hd) ..)⟩
  | @fail d p offered =>
    by_cases hd : d = c
    · subst hd
      exact ⟨_, h.comeBack⟩
    · exact ⟨issued, h.unchanged rfl rfl rfl rfl rfl (Function.update_of_ne (Ne.symm hd) ..)⟩
  | @take d p place loan e =>
    by_cases hd : d = c
    · subst hd
      exact ⟨_, h.take loan e⟩
    · exact ⟨issued, h.take_other hd p place e⟩
  | write underway stage =>
    exact ⟨issued, h.proceed underway (by simp [Delivery.isCounted, stage]) rfl rfl⟩
  | count underway stage => exact ⟨issued, h.countOut underway stage⟩
  | call underway stage =>
    refine ⟨issued, h.proceed underway (by simp [Delivery.isCounted, stage]) ?_ ?_⟩
    · simp [System.held]
    · simp [System.inFlight]
  | finish underway stage => exact ⟨issued, h.finish underway stage⟩

theorem Run.accounted (run : t.Run u) (h : t.Accounted c issued) :
    ∃ issued, u.Accounted c issued := by
  induction run with
  | nil => exact ⟨issued, h⟩
  | snoc _ step ih =>
    obtain ⟨_, h⟩ := ih
    exact step.accounted h

theorem accounted_empty (m : Memory) (c : ClientId) :
    Accounted { system := { memory := m, clients := ([] : List (Client σ)) } } c [] where
  length_held := rfl
  fates _ := rfl
  inFlight := rfl
  accepted _ h := absurd h List.not_mem_nil
  offered p h := by simp at h

-- ---------------------------------------------------------------------------
-- What the count tells
-- ---------------------------------------------------------------------------

/-- The count is that of the packets that are not counted out yet. From its acceptance on a packet
is among these, or its call is about to begin or running, or that has returned. So whoever reads
zero knows no more of the calls than that each is about to begin at least. -/
theorem Run.counting {m : Memory} (run : Run { system := { memory := m } } t) (c : ClientId) :
    t.system.inFlight c = (t.counted c).length ∧
    (∀ loan ∈ t.accepted c,
      (t.counted c).count loan + (t.delivering c).count loan + (t.delivered c).count loan = 1) ∧
    (∀ loan ∈ t.delivering c, loan ∉ t.counted c) ∧
    (t.system.inFlight c = 0 → ∀ loan ∈ t.accepted c,
      loan ∈ t.delivered c ∧ loan ∉ t.delivering c ∨
        loan ∈ t.delivering c ∧ loan ∉ t.delivered c) := by
  obtain ⟨issued, h⟩ := run.accounted (accounted_empty m c)
  have hone : ∀ loan ∈ t.accepted c,
      (t.counted c).count loan + (t.delivering c).count loan + (t.delivered c).count loan = 1 := by
    intro loan hloan
    rw [h.fates]
    exact List.count_eq_one_of_mem (nodup_zipIdx issued) (h.accepted loan hloan)
  refine ⟨h.inFlight, hone, ?_, ?_⟩
  · intro loan hdelivering hcounted
    have hmost : issued.zipIdx.count loan ≤ 1 :=
      List.nodup_iff_count_le_one.mp (nodup_zipIdx issued) loan
    have hfates := h.fates loan
    have hpos := List.count_pos_iff.mpr hdelivering
    have hpos' := List.count_pos_iff.mpr hcounted
    omega
  · intro hzero loan hloan
    have hnone : t.counted c = [] := by
      rw [h.inFlight] at hzero
      exact List.eq_nil_of_length_eq_zero (Int.natCast_eq_zero.mp hzero)
    have hfate := hone loan hloan
    rw [hnone, List.count_nil, Nat.zero_add] at hfate
    rcases Nat.eq_zero_or_pos ((t.delivering c).count loan) with hdelivering | hdelivering
    · left
      rw [hdelivering, Nat.zero_add] at hfate
      exact ⟨List.count_pos_iff.mp (by omega), List.count_eq_zero.mp hdelivering⟩
    · right
      exact ⟨List.count_pos_iff.mp hdelivering, List.count_eq_zero.mp (by omega)⟩

def keeper : Client Scripted := .ofEngine .zero [] .native 7 {}

def lent : Deliveries Scripted :=
  (({ system := (System.add {} keeper).2 } : Deliveries Scripted).offer 0 3).accept 0 3

def delivery : Delivery := ⟨0, 0, 3, ⟨.ok, [1]⟩, .taken⟩

def uncounted : Deliveries Scripted :=
  let taken := lent.take 0 0 3 (.complete .ok [1])
  { taken with
    system := (taken.system.fill 3 delivery.report).modify 0 (·.countDown)
    underway := [{ delivery with stage := .counted }] }

theorem run_uncounted : Run {} uncounted := by
  have held : Run {} lent :=
    ((Run.nil.snoc (.start keeper)).snoc (.offer 3 rfl rfl)).snoc (.accept rfl)
  have taken := held.snoc
    (.take (show (3, 0) ∈ lent.system.loans 0 by decide) (.complete .ok [1]))
  have written := taken.snoc (.write (show _ = [] ++ delivery :: [] from rfl) rfl)
  exact written.snoc
    (.count (show _ = [] ++ { delivery with stage := .written } :: [] from rfl) rfl)

/-- The host can read zero before the call for its only packet has begun, and inside of it. -/
theorem delivering_uncounted :
    ∃ t u : Deliveries Scripted, Run {} t ∧ t.Step u ∧
      (t.offers 0 = none ∧ t.accepted 0 = [(3, 0)] ∧ t.system.inFlight 0 = 0 ∧
        t.system.completions = [] ∧ t.delivered 0 = []) ∧
      (u.offers 0 = none ∧ u.accepted 0 = [(3, 0)] ∧ u.system.inFlight 0 = 0 ∧
        u.system.completions.map (fun x => (x.packet, x.inFlight)) = [(3, 0)] ∧
        u.delivered 0 = []) :=
  ⟨uncounted, _, run_uncounted, .call (show _ = [] ++ _ :: [] from rfl) rfl, by decide, by decide⟩

theorem counting_uncounted :
    uncounted.system.inFlight 0 = (uncounted.counted 0).length ∧
      uncounted.system.inFlight 0 = 0 ∧ uncounted.delivering 0 = [(3, 0)] ∧
      (3, 0) ∉ uncounted.counted 0 := by
  obtain ⟨count, -, delivering, -⟩ := Run.counting run_uncounted 0
  exact ⟨count, by decide, by decide, delivering (3, 0) (by decide)⟩

end Deliveries

end Courier
