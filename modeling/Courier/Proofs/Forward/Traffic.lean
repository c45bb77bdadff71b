import Courier.Proofs.Forward.HostedWorker
import Courier.Proofs.Forward.Wire
import Courier.Proofs.Frame.Acceptance

/-!
# Requests on their connections

What was written to the peers is a list of requests, in the order in which their packets were
accepted and each for another packet. A request that was not written to its end is the last one
on its connection (`Traffic`). So a peer that takes frames off what it gets finds the requests
that were written to their end, and behind them at most the front of one more.
-/

namespace Courier.Forward

open Courier.Frame (Kind Request Decoder)

/-- A request on its way to a peer, in the portions in which it was written so far. -/
structure Send where
  channel : Nat
  place : Place
  request : Request
  portions : List Bytes := []

namespace Send

def frame (x : Send) : Bytes := Kind.request.written x.request

def bytes (x : Send) : Bytes := x.portions.flatten

def writes (x : Send) : List Write := x.portions.map (⟨x.channel, x.place, ·⟩)

def write (x : Send) (bytes : Bytes) : Send := { x with portions := x.portions ++ [bytes] }

/-- The request was written to its end. -/
def Whole (x : Send) : Prop := x.bytes = x.frame

/-- The packet of the one was submitted before that of the other. On the same connection nothing
comes behind a request that was not written to its end. -/
def Precedes (x y : Send) : Prop := x.place < y.place ∧ (x.channel = y.channel → x.Whole)

@[simp] theorem bytes_write (x : Send) (bytes : Bytes) :
    (x.write bytes).bytes = x.bytes ++ bytes := by
  simp [Send.bytes, write]

@[simp] theorem frame_write (x : Send) (bytes : Bytes) : (x.write bytes).frame = x.frame := rfl

@[simp] theorem writes_write (x : Send) (bytes : Bytes) :
    (x.write bytes).writes = x.writes ++ [⟨x.channel, x.place, bytes⟩] := by
  simp [writes, write]

end Send

def bytesOn (channel : Nat) (writes : List Write) : Bytes :=
  ((writes.filter (·.channel == channel)).map (·.bytes)).flatten

def portionsOn (channel : Nat) (sends : List Send) : List Bytes :=
  (sends.filter (·.channel == channel)).flatMap (·.portions)

/-- The packet in the place, as one of those that were accepted, is valid and asks for the
request. -/
def Posed (limit : UInt32) (cluster : Cluster) (packets : List Packet) (place : Place)
    (request : Request) : Prop :=
  ∃ p payload, packets[place]? = some p ∧ p.request limit = .ok payload ∧
    request = { cluster, operation := p.operation, tag := p.tag, payload } ∧
    request.encode limit = .ok (Kind.request.written request)

theorem Posed.append {limit : UInt32} {cluster : Cluster} {packets : List Packet}
    {request : Request} (h : Posed limit cluster packets place request) (more : List Packet) :
    Posed limit cluster (packets ++ more) place request := by
  obtain ⟨p, payload, hp, h⟩ := h
  have hlt : place < packets.length := (List.getElem?_eq_some_iff.mp hp).1
  exact ⟨p, payload, (List.getElem?_append_left hlt).trans hp, h⟩

namespace Act

def channel? : Act → Option Nat
  | work (.hear (.accepted channel)) => some channel
  | _ => none

def channels (acts : List Act) : List Nat := acts.filterMap channel?

def packets (acts : List Act) : List Packet := acts.filterMap packet?

theorem packets_snoc (acts : List Act) (act : Act) :
    packets (acts ++ [act]) = packets acts ++ act.packet?.toList := by
  cases h : act.packet? <;> simp [packets, h]

theorem packets_snoc_none (acts : List Act) {act : Act} (none : act.packet? = none) :
    packets (acts ++ [act]) = packets acts := by
  rw [packets_snoc, none]
  exact List.append_nil _

theorem channels_subset (acts : List Act) (act : Act) :
    channels acts ⊆ channels (acts ++ [act]) := by
  rw [channels, channels, List.filterMap_append]
  exact List.subset_append_left _ _

theorem fresh_of_nodup {acts later : List Act} {act : Act}
    (apart : (channels (acts ++ act :: later)).Nodup) :
    ∀ channel, act.channel? = some channel → channel ∉ channels acts := by
  intro channel opens old
  simp only [channels, List.filterMap_append, List.filterMap_cons, opens] at apart old
  exact (List.nodup_append.mp apart).2.2 channel old channel List.mem_cons_self rfl

end Act

-- ---------------------------------------------------------------------------
-- The requests sent so far
-- ---------------------------------------------------------------------------

/-- All that was sent on the line was written to its end, and nothing else was. -/
structure Clear (channels : List Nat) (sends : List Send) (line : Line) : Prop where
  opened : line.channel ∈ channels
  whole : ∀ x ∈ sends, x.channel = line.channel → x.Whole
  sent : line.sent = portionsOn line.channel sends

/-- What is sent next goes on a clear line. The packets of all that was sent before have ended. -/
inductive WireInvariant (channels : List Nat) (ended : List Place) : List Send → Wire → Prop
  | free {sends kept} (finished : ∀ x ∈ sends, x.place ∈ ended)
      (clear : ∀ line, kept = some line → Clear channels sends line) :
      WireInvariant channels ended sends (.free kept)
  | busy {past x before unsent} (finished : ∀ y ∈ past, y.place ∈ ended)
      (clear : Clear channels past ⟨x.channel, before⟩) (rest : x.bytes ++ unsent = x.frame) :
      WireInvariant channels ended (past ++ [x])
        (.busy x.place x.frame ⟨x.channel, before ++ x.portions⟩ unsent)

/-- A request of an accepted packet, on a connection that was accepted, and as far as it was
written. -/
structure Send.Due (limit : UInt32) (cluster : Cluster) (acts : List Act) (x : Send) : Prop where
  posed : Posed limit cluster (Act.packets acts) x.place x.request
  opened : x.channel ∈ Act.channels acts
  begun : x.bytes <+: x.frame

/-- What was written is the requests that were sent, each in order and no further than to its
end. -/
structure Traffic (limit : UInt32) (cluster : Cluster) (acts : List Act) (calls : List Call)
    (writes : List Write) (wire : Wire) (sends : List Send) : Prop where
  writes_eq : writes = sends.flatMap Send.writes
  order : sends.Pairwise Send.Precedes
  due : ∀ x ∈ sends, x.Due limit cluster acts
  answered : ∀ c ∈ calls, c.reply.isSome → ∃ x ∈ sends, x.place = c.place ∧ x.Whole
  wireInvariant : WireInvariant (Act.channels acts) (calls.map (·.place)) sends wire

variable {limit : UInt32} {cluster : Cluster} {acts : List Act} {calls more : List Call}
  {writes : List Write} {wire : Wire} {sends past : List Send} {channels : List Nat} {line : Line}
  {x : Send} {place : Place} {request : Request}

theorem portionsOn_append : portionsOn channel (past ++ sends) =
    portionsOn channel past ++ portionsOn channel sends := by
  simp [portionsOn]

theorem portionsOn_singleton : portionsOn channel [x] =
    if x.channel = channel then x.portions else [] := by
  by_cases same : x.channel = channel <;> simp [portionsOn, same]

theorem Clear.mono (h : Clear channels sends line) (later : channels ⊆ channels') :
    Clear channels' sends line :=
  { h with opened := later h.opened }

theorem WireInvariant.mono (h : WireInvariant channels ended sends wire)
    (later : channels ⊆ channels') (since : ended ⊆ ended') :
    WireInvariant channels' ended' sends wire := by
  cases h with
  | free finished clear =>
    exact .free (fun x hx => since (finished x hx)) fun line h => (clear line h).mono later
  | busy finished clear rest =>
    exact .busy (fun y hy => since (finished y hy)) (clear.mono later) rest

theorem Send.Due.mono (h : x.Due limit cluster acts) (act : Act) :
    x.Due limit cluster (acts ++ [act]) where
  posed := by
    rw [Act.packets_snoc]
    exact h.posed.append _
  opened := Act.channels_subset acts act h.opened
  begun := h.begun

theorem WireInvariant.sent_kept (h : WireInvariant channels ended sends (.free (some line))) :
    line.sent = portionsOn line.channel sends := by
  cases h with
  | free _ clear => exact (clear line rfl).sent

theorem WireInvariant.sent_busy
    (h : WireInvariant channels ended sends (.busy place frame line unsent)) :
    line.sent = portionsOn line.channel sends := by
  cases h with
  | busy _ clear => simp [portionsOn_append, portionsOn_singleton, ← clear.sent]

theorem Traffic.mono (h : Traffic limit cluster acts calls writes wire sends) (act : Act)
    (answered : ∀ c ∈ more, c.reply.isSome → ∃ x ∈ sends, x.place = c.place ∧ x.Whole) :
    Traffic limit cluster (acts ++ [act]) (calls ++ more) writes wire sends where
  writes_eq := h.writes_eq
  order := h.order
  due x hx := (h.due x hx).mono act
  answered := List.forall_mem_append.mpr ⟨h.answered, answered⟩
  wireInvariant := by
    refine h.wireInvariant.mono (Act.channels_subset acts act) ?_
    rw [List.map_append]
    exact List.subset_append_left _ _

theorem Traffic.clear_of_fresh (h : Traffic limit cluster acts calls writes wire sends)
    (fresh : channel ∉ Act.channels acts) (now : channel ∈ channels) :
    Clear channels sends ⟨channel, []⟩ := by
  have unused : ∀ x ∈ sends, x.channel ≠ channel := by
    rintro x hx rfl
    exact fresh (h.due x hx).opened
  refine ⟨now, fun x hx same => absurd same (unused x hx), ?_⟩
  have hnone : sends.filter (·.channel == channel) = [] :=
    List.filter_eq_nil_iff.mpr fun x hx => by simpa using unused x hx
  rw [portionsOn, hnone]
  rfl

theorem Traffic.begin (h : Traffic limit cluster acts calls writes (.free kept) sends)
    (clear : Clear (Act.channels acts) sends line)
    (posed : Posed limit cluster (Act.packets acts) place request)
    (later : ∀ c ∈ calls, c.place < place) :
    Traffic limit cluster acts calls writes
      (.busy place (Kind.request.written request) line (Kind.request.written request))
      (sends ++ [{ channel := line.channel, place, request }]) := by
  obtain ⟨finished⟩ := h.wireInvariant
  constructor
  · simp [h.writes_eq, Send.writes]
  · refine List.pairwise_append.mpr ⟨h.order, List.pairwise_singleton _ _, ?_⟩
    intro x hx y hy
    obtain rfl := List.mem_singleton.mp hy
    obtain ⟨c, hc, hplace⟩ := List.mem_map.mp (finished x hx)
    exact ⟨hplace ▸ later c hc, clear.whole x hx⟩
  · refine List.forall_mem_append.mpr ⟨h.due, List.forall_mem_singleton.mpr ?_⟩
    exact ⟨posed, clear.opened, List.nil_prefix⟩
  · intro c hc replied
    obtain ⟨x, hx, answered⟩ := h.answered c hc replied
    exact ⟨x, List.mem_append_left _ hx, answered⟩
  · have wireInvariant : WireInvariant (Act.channels acts) (calls.map (·.place))
        (sends ++ [{ channel := line.channel, place, request }]) (.busy place
          (Kind.request.written request) ⟨line.channel, line.sent ++ []⟩
          (Kind.request.written request)) :=
      .busy (x := { channel := line.channel, place, request }) finished clear rfl
    rwa [List.append_nil] at wireInvariant

theorem Send.Whole.write (h : x.Whole) (rest : x.bytes ++ unsent = x.frame) (count : Nat) :
    (x.write (unsent.take count)).Whole := by
  have hnil : unsent = [] := List.append_right_eq_self.mp (rest.trans h.symm)
  simpa [Send.Whole, hnil] using h

theorem Traffic.write
    (h : Traffic limit cluster acts calls writes (.busy place frame line unsent) sends)
    (count : Nat) : ∃ sends, Traffic limit cluster acts calls
      (writes ++ [⟨line.channel, place, unsent.take count⟩])
      (.busy place frame (line.write (unsent.take count)) (unsent.drop count)) sends := by
  obtain ⟨writes_eq, order, due, answered, wireInvariant⟩ := h
  cases wireInvariant with
  | @busy past x before _ finished clear rest =>
    obtain ⟨hpast, -, hlast⟩ := List.pairwise_append.mp order
    obtain ⟨hdue, hx⟩ := List.forall_mem_append.mp due
    obtain ⟨posed, opened, -⟩ := hx x List.mem_cons_self
    have hrest : (x.write (unsent.take count)).bytes ++ unsent.drop count = x.frame := by
      rw [Send.bytes_write, List.append_assoc, List.take_append_drop, rest]
    refine ⟨past ++ [x.write (unsent.take count)], ?_, ?_, ?_, ?_, ?_⟩
    · simp [writes_eq]
    · refine List.pairwise_append.mpr ⟨hpast, List.pairwise_singleton _ _, ?_⟩
      intro y hy z hz
      obtain rfl := List.mem_singleton.mp hz
      exact hlast y hy x List.mem_cons_self
    · refine List.forall_mem_append.mpr ⟨hdue, List.forall_mem_singleton.mpr ?_⟩
      exact ⟨posed, opened, _, hrest⟩
    · intro c hc replied
      obtain ⟨y, hy, hplace, whole⟩ := answered c hc replied
      rcases List.mem_append.mp hy with hold | hnew
      · exact ⟨y, List.mem_append_left _ hold, hplace, whole⟩
      · obtain rfl := List.mem_singleton.mp hnew
        exact ⟨_, List.mem_append_right _ List.mem_cons_self, hplace, whole.write rest count⟩
    · have wireInvariant :=
        WireInvariant.busy (x := x.write (unsent.take count)) finished clear hrest
      simpa [Line.write, Send.write, Send.frame] using wireInvariant

/-- A request that nothing is left of was written to its end. -/
theorem Traffic.whole
    (h : Traffic limit cluster acts calls writes (.busy place frame line []) sends) :
    ∃ x ∈ sends, x.place = place ∧ x.Whole := by
  cases h.wireInvariant with
  | busy finished clear rest =>
    rw [List.append_nil] at rest
    exact ⟨_, List.mem_append_right _ List.mem_cons_self, rfl, rest⟩

theorem Traffic.keep
    (h : Traffic limit cluster acts calls writes (.busy place frame line []) sends)
    (finished : place ∈ calls.map (·.place)) :
    Traffic limit cluster acts calls writes (.free (some line)) sends := by
  refine { h with wireInvariant := ?_ }
  have wireInvariant := h.wireInvariant
  cases wireInvariant with
  | @busy past x before _ ended clear rest =>
    rw [List.append_nil] at rest
    refine .free (List.forall_mem_append.mpr ⟨ended, List.forall_mem_singleton.mpr finished⟩) ?_
    rintro _ ⟨⟩
    refine ⟨clear.opened, ?_, ?_⟩
    · exact List.forall_mem_append.mpr ⟨clear.whole, List.forall_mem_singleton.mpr fun _ => rest⟩
    · exact h.wireInvariant.sent_busy

theorem Traffic.lose (h : Traffic limit cluster acts calls writes wire sends)
    (finished : ∀ place frame line unsent, wire = .busy place frame line unsent →
      place ∈ calls.map (·.place)) :
    Traffic limit cluster acts calls writes (.free none) sends := by
  refine { h with wireInvariant := ?_ }
  cases h.wireInvariant with
  | free ended => exact .free ended nofun
  | busy ended clear rest =>
    refine .free (List.forall_mem_append.mpr ⟨ended, List.forall_mem_singleton.mpr ?_⟩) nofun
    exact finished _ _ _ _ rfl

-- ---------------------------------------------------------------------------
-- One connection
-- ---------------------------------------------------------------------------

theorem flatten_portionsOn (channel : Nat) (sends : List Send) :
    (portionsOn channel sends).flatten =
      ((sends.filter (·.channel == channel)).map Send.bytes).flatten := by
  rw [portionsOn, List.flatMap_def, List.flatten_flatten, List.map_map]
  rfl

theorem bytesOn_flatMap (channel : Nat) (sends : List Send) :
    bytesOn channel (sends.flatMap Send.writes) = (portionsOn channel sends).flatten := by
  induction sends with
  | nil => rfl
  | cons x sends ih =>
    have hhead : (x.writes.filter (·.channel == channel)).map (·.bytes) =
        portionsOn channel [x] := by
      rw [portionsOn_singleton]
      by_cases same : x.channel = channel <;>
        simp [Send.writes, List.filter_map, Function.comp_def, same]
    rw [List.flatMap_cons, bytesOn, List.filter_append, List.map_append, List.flatten_append,
      hhead, ← bytesOn, ih, ← List.flatten_append, ← portionsOn_append]
    rfl

theorem Send.Due.fits (h : x.Due limit cluster acts) :
    x.request.payload.length ≤ limit.toNat := by
  obtain ⟨p, payload, -, -, -, encoded⟩ := h.posed
  have written : Kind.request.encode x.request limit = .ok x.frame := encoded
  exact (Kind.encode_eq_ok_iff.mp written).1

theorem drain_whole {whole : List Send} (due : ∀ x ∈ whole, x.Due limit cluster acts)
    (small : ∀ x ∈ whole, Request.headerSize + x.request.payload.length < 2 ^ 32) (rest : Bytes) :
    (Decoder.request limit).drain ((whole.map Send.frame).flatten ++ rest) =
      ((Decoder.request limit).drain rest).behind
        (whole.map fun x => (x.request, x.frame.length)) := by
  have hsmall : ∀ m ∈ whole.map (·.request), Request.headerSize + m.payload.length < 2 ^ 32 :=
    List.forall_mem_map.mpr small
  have hfits : ∀ m ∈ whole.map (·.request), m.payload.length ≤ limit.toNat :=
    List.forall_mem_map.mpr fun x hx => (due x hx).fits
  have hdrain : (Kind.request.decoder limit).drain _ = _ := Kind.drain_written hsmall hfits rest
  rw [List.map_map, List.map_map, List.zip_map'] at hdrain
  exact hdrain

theorem decode_cut_send {cut : Option Send} (due : ∀ x ∈ cut, x.Due limit cluster acts)
    (short : ∀ x ∈ cut, ¬ x.Whole)
    (small : ∀ x ∈ cut, Request.headerSize + x.request.payload.length < 2 ^ 32) :
    (Decoder.request limit).decode (cut.elim [] Send.bytes) = .error .needMore := by
  cases cut with
  | none => rfl
  | some x =>
    have hsmall : Kind.request.headerSize + (Kind.request.payload x.request).length < 2 ^ 32 :=
      small x rfl
    exact Kind.decode_cut hsmall (due x rfl).fits (due x rfl).begun (short x rfl)

/-- What a peer gets on its connection is requests that were written to their end, and at most the
front of one more. Where all of them can be counted it takes these requests off again. -/
structure Delivered (limit : UInt32) (sends : List Send) (got : Bytes) (whole : List Send)
    (cut : Option Send) : Prop where
  sends_eq : sends = whole ++ cut.toList
  all_whole : ∀ x ∈ whole, x.Whole
  not_whole : ∀ x ∈ cut, ¬ x.Whole
  got_eq : got = (whole.map Send.frame).flatten ++ cut.elim [] Send.bytes
  taken : (∀ x ∈ sends, Request.headerSize + x.request.payload.length < 2 ^ 32) →
    (Decoder.request limit).drain got =
      ⟨whole.map fun x => (x.request, x.frame.length), .needMore, cut.elim [] Send.bytes⟩

theorem Traffic.whole_of_order (h : Traffic limit cluster acts calls writes wire sends)
    (channel : Nat) : (sends.filter (·.channel == channel)).Pairwise fun x _ => x.Whole := by
  refine (h.order.filter _).imp_of_mem ?_
  intro x y hx hy precedes
  have hx : x.channel = channel := by simpa using (List.mem_filter.mp hx).2
  have hy : y.channel = channel := by simpa using (List.mem_filter.mp hy).2
  exact precedes.2 (hx.trans hy.symm)

theorem Traffic.delivered (h : Traffic limit cluster acts calls writes wire sends) (channel : Nat) :
    ∃ whole cut, Delivered limit (sends.filter (·.channel == channel)) (bytesOn channel writes)
      whole cut := by
  obtain ⟨whole, cut, hsplit, hwhole, hcut⟩ := exists_last_without (h.whole_of_order channel)
  have hbytes : bytesOn channel writes =
      (whole.map Send.frame).flatten ++ cut.elim [] Send.bytes := by
    have hframes : whole.map Send.bytes = whole.map Send.frame := List.map_congr_left hwhole
    rw [h.writes_eq, bytesOn_flatMap, flatten_portionsOn, hsplit, List.map_append,
      List.flatten_append, hframes]
    cases cut <;> simp
  refine ⟨whole, cut, hsplit, hwhole, hcut, hbytes, ?_⟩
  intro small
  have hdue : ∀ x ∈ whole ++ cut.toList, x.Due limit cluster acts := fun x hx =>
    h.due x (List.mem_of_mem_filter (hsplit ▸ hx))
  rw [hsplit] at small
  obtain ⟨hdue, hdueCut⟩ := List.forall_mem_append.mp hdue
  obtain ⟨hsmall, hsmallCut⟩ := List.forall_mem_append.mp small
  have hdueCut : ∀ x ∈ cut, x.Due limit cluster acts := fun x hx =>
    hdueCut x (Option.mem_toList.mpr hx)
  have hstop : (Decoder.request limit).decode (cut.elim [] Send.bytes) = .error .needMore :=
    decode_cut_send hdueCut hcut fun x hx => hsmallCut x (Option.mem_toList.mpr hx)
  rw [hbytes, drain_whole hdue hsmall, Decoder.drain_of_error _ hstop]
  simp [Decoder.Intake.behind]

theorem Traffic.filter_place (h : Traffic limit cluster acts calls writes wire sends)
    (hx : x ∈ sends) : sends.filter (·.place == x.place) = [x] := by
  obtain ⟨past, future, rfl⟩ := List.append_of_mem hx
  obtain ⟨-, hfuture, hpast⟩ := List.pairwise_append.mp h.order
  have hbefore : past.filter (·.place == x.place) = [] := by
    refine List.filter_eq_nil_iff.mpr fun y hy => ?_
    simpa using Nat.ne_of_lt (hpast y hy x List.mem_cons_self).1
  have hafter : future.filter (·.place == x.place) = [] := by
    refine List.filter_eq_nil_iff.mpr fun y hy => ?_
    simpa using Nat.ne_of_gt ((List.pairwise_cons.mp hfuture).1 y hy).1
  rw [List.filter_append, List.filter_cons, hbefore, hafter]
  simp

end Courier.Forward
