import Courier.Proofs.Config.Values
import Mathlib.Data.List.Induction
import Mathlib.Data.List.Nodup

/-!
# Configurations given by name

Entries are read where each names a field of its own and gives it a value that it may have, and
what is read does not depend on their order. What is said of other entries does: it is what is
wrong with the leftmost entry behind entries that can be read, and the name counts before the value.
-/

namespace Courier.Config

-- ---------------------------------------------------------------------------
-- Fields
-- ---------------------------------------------------------------------------

def Field.wanted : Field → Wanted
  | maxPayload => .word32
  | maxAddresses => .size
  | defaultPort => .word16
  | workerName => .text
  | connectTimeout | requestTimeout => .word64

theorem Field.ofName?_name (field : Field) : ofName? field.name = some field := by
  cases field <;> rfl

theorem Field.name_inj {field other : Field} (h : field.name = other.name) : field = other := by
  have same := congrArg ofName? h
  rw [ofName?_name, ofName?_name] at same
  exact Option.some.inj same

theorem Field.ofName?_eq_some_iff {name : String} :
    Field.ofName? name = some field ↔ name = field.name := by
  constructor
  · intro found
    have named := List.find?_some found
    exact (beq_iff_eq.mp named).symm
  · rintro rfl
    exact Field.ofName?_name field

theorem Field.ofName?_eq_none_iff {name : String} :
    Field.ofName? name = none ↔ ∀ field : Field, name ≠ field.name := by
  rw [Option.eq_none_iff_forall_ne_some]
  exact forall_congr' fun field => not_congr Field.ofName?_eq_some_iff

def datum (c : Config) : Field → Datum
  | .maxPayload => .integer c.maxPayload.toNat
  | .maxAddresses => .integer c.maxAddresses.toNat
  | .defaultPort => .integer c.defaultPort.toNat
  | .workerName => .text c.workerName
  | .connectTimeout => .integer c.connectTimeout.toNat
  | .requestTimeout => .integer c.requestTimeout.toNat

theorem eq_of_datum {c d : Config} (same : ∀ field, c.datum field = d.datum field) : c = d := by
  have maxPayload := same .maxPayload
  have maxAddresses := same .maxAddresses
  have defaultPort := same .defaultPort
  have workerName := same .workerName
  have connectTimeout := same .connectTimeout
  have requestTimeout := same .requestTimeout
  simp only [datum, Datum.integer.injEq, Datum.text.injEq, Int.natCast_inj, UInt16.toNat_inj,
    UInt32.toNat_inj, UInt64.toNat_inj] at *
  cases c
  cases d
  simp_all

-- ---------------------------------------------------------------------------
-- Drafts
-- ---------------------------------------------------------------------------

def Draft.datum? (d : Draft) : Field → Option Datum
  | .maxPayload => d.maxPayload.map fun n => .integer n.toNat
  | .maxAddresses => d.maxAddresses.map fun n => .integer n.toNat
  | .defaultPort => d.defaultPort.map fun n => .integer n.toNat
  | .workerName => d.workerName.map .text
  | .connectTimeout => d.connectTimeout.map fun n => .integer n.toNat
  | .requestTimeout => d.requestTimeout.map fun n => .integer n.toNat

theorem Draft.has_eq (d : Draft) (field : Field) : d.has field = (d.datum? field).isSome := by
  cases field <;> exact Option.isSome_map.symm

theorem Draft.datum_finish (d : Draft) (field : Field) :
    d.finish.datum field = (d.datum? field).getD (({} : Config).datum field) := by
  cases field <;> simp only [finish, datum, datum?, Option.getD_map]

theorem Wanted.Reads.of_ok {wanted : Wanted} {read : Datum → Except Error α} {datum : α → Datum}
    {enter : α → Draft} (reads : wanted.Reads read datum)
    (h : (do return enter (← read value)) = .ok d) :
    wanted.Admits value ∧ ∃ a, value = datum a ∧ d = enter a := by
  cases result : read value with
  | error e =>
    rw [result] at h
    cases h
  | ok a =>
    rw [result] at h
    cases h
    obtain rfl := (reads.ok_iff value a).mp result
    exact ⟨reads.admits a, a, rfl, rfl⟩

theorem Wanted.Reads.error_enter_iff {wanted : Wanted} {read : Datum → Except Error α}
    {datum : α → Datum} {enter : α → Draft} (reads : wanted.Reads read datum) :
    (do return enter (← read value)) = .error e ↔ wanted.Refuses value e := by
  rw [← reads.error_iff]
  cases read value <;> simp [bind, Except.bind, pure, Except.pure]

/-- Reading a field sets it and no other one. -/
theorem Draft.read_ok {d d' : Draft} {field : Field} (h : d.read value field = .ok d') :
    field.wanted.Admits value ∧
      ∀ other, d'.datum? other = if other = field then some value else d.datum? other := by
  cases field
  case maxPayload =>
    obtain ⟨admits, n, rfl, rfl⟩ := reads_word32.of_ok h
    exact ⟨admits, by rintro (_ | _) <;> rfl⟩
  case maxAddresses =>
    obtain ⟨admits, n, rfl, rfl⟩ := reads_size.of_ok h
    exact ⟨admits, by rintro (_ | _) <;> rfl⟩
  case defaultPort =>
    obtain ⟨admits, n, rfl, rfl⟩ := reads_word16.of_ok h
    exact ⟨admits, by rintro (_ | _) <;> rfl⟩
  case workerName =>
    obtain ⟨admits, s, rfl, rfl⟩ := reads_text.of_ok h
    exact ⟨admits, by rintro (_ | _) <;> rfl⟩
  case connectTimeout =>
    obtain ⟨admits, n, rfl, rfl⟩ := reads_word64.of_ok h
    exact ⟨admits, by rintro (_ | _) <;> rfl⟩
  case requestTimeout =>
    obtain ⟨admits, n, rfl, rfl⟩ := reads_word64.of_ok h
    exact ⟨admits, by rintro (_ | _) <;> rfl⟩

theorem Draft.read_eq_error_iff {d : Draft} {field : Field} :
    d.read value field = .error e ↔ field.wanted.Refuses value e := by
  cases field
  case maxPayload => exact reads_word32.error_enter_iff
  case maxAddresses => exact reads_size.error_enter_iff
  case defaultPort => exact reads_word16.error_enter_iff
  case workerName => exact reads_text.error_enter_iff
  case connectTimeout | requestTimeout => exact reads_word64.error_enter_iff

theorem Draft.enter_unknown {name : String} (d : Draft) (other : ∀ field : Field, name ≠ field.name)
    (value : Datum) : d.enter (name, value) = .error (.unknownField name) := by
  rw [Draft.enter, Field.ofName?_eq_none_iff.mpr other]

theorem Draft.enter_duplicate {d : Draft} {field : Field} (has : d.has field = true)
    (value : Datum) : d.enter (field.name, value) = .error (.duplicateField field) := by
  simp only [Draft.enter, Field.ofName?_name]
  exact if_pos has

theorem Draft.enter_unread {d : Draft} {field : Field} (has : ¬ d.has field = true)
    (value : Datum) : d.enter (field.name, value) = d.read value field := by
  simp only [Draft.enter, Field.ofName?_name]
  exact if_neg has

-- ---------------------------------------------------------------------------
-- One entry
-- ---------------------------------------------------------------------------

/-- Entries that can be read: each names a field of its own, with a value that it may have. -/
structure Acceptable (entries : List (String × Datum)) : Prop where
  distinct : (entries.map Prod.fst).Nodup
  admitted : ∀ entry ∈ entries, ∃ field : Field,
    entry.1 = field.name ∧ field.wanted.Admits entry.2

inductive Fault (earlier : List (String × Datum)) : String × Datum → Error → Prop
  | unknown (other : ∀ field : Field, name ≠ field.name) :
      Fault earlier (name, value) (.unknownField name)
  | duplicate {field : Field} (again : field.name ∈ earlier.map Prod.fst) :
      Fault earlier (field.name, value) (.duplicateField field)
  | value {field : Field} (first : field.name ∉ earlier.map Prod.fst)
      (refused : field.wanted.Refuses value e) : Fault earlier (field.name, value) e

theorem Fault.not_acceptable (fault : Fault earlier entry e) :
    ¬ Acceptable (earlier ++ entry :: later) := by
  intro acceptable
  obtain ⟨field, named, admits⟩ := acceptable.admitted entry (by simp)
  cases fault with
  | unknown other => exact other field named
  | duplicate again =>
    have distinct := acceptable.distinct
    rw [List.map_append, List.map_cons] at distinct
    exact List.disjoint_of_nodup_append distinct again List.mem_cons_self
  | value first refused =>
    cases Field.name_inj named
    exact refused.not_admits admits

def Draft.Holds (d : Draft) (entries : List (String × Datum)) : Prop :=
  ∀ field value, d.datum? field = some value ↔ (field.name, value) ∈ entries

theorem Draft.Holds.has_iff {d : Draft} (holds : d.Holds entries) (field : Field) :
    d.has field = true ↔ field.name ∈ entries.map Prod.fst := by
  rw [Draft.has_eq, Option.isSome_iff_exists, List.mem_map]
  constructor
  · rintro ⟨value, read⟩
    exact ⟨_, (holds field value).mp read, rfl⟩
  · rintro ⟨⟨name, value⟩, mem, rfl⟩
    exact ⟨value, (holds field value).mpr mem⟩

theorem Draft.Holds.enter_eq_error_iff {d : Draft} (holds : d.Holds entries) :
    d.enter entry = .error e ↔ Fault entries entry e := by
  constructor
  · intro failed
    obtain ⟨name, value⟩ := entry
    by_cases known : ∃ field : Field, name = field.name
    · obtain ⟨field, rfl⟩ := known
      by_cases again : field.name ∈ entries.map Prod.fst
      · rw [enter_duplicate ((holds.has_iff field).mpr again)] at failed
        cases failed
        exact .duplicate again
      · rw [enter_unread fun has => again ((holds.has_iff field).mp has)] at failed
        exact .value again (read_eq_error_iff.mp failed)
    · have other := not_exists.mp known
      rw [enter_unknown d other] at failed
      cases failed
      exact .unknown other
  · intro fault
    cases fault with
    | unknown other => exact enter_unknown d other _
    | duplicate again => exact enter_duplicate ((holds.has_iff _).mpr again) _
    | value first refused =>
      rw [enter_unread fun has => first ((holds.has_iff _).mp has)]
      exact read_eq_error_iff.mpr refused

theorem Acceptable.concat (acceptable : Acceptable entries) {field : Field}
    (first : field.name ∉ entries.map Prod.fst) (admits : field.wanted.Admits value) :
    Acceptable (entries ++ [(field.name, value)]) where
  distinct := by
    rw [List.map_append, List.map_singleton, ← List.concat_eq_append]
    exact acceptable.distinct.concat first
  admitted := by
    rintro entry mem
    rcases List.mem_append.mp mem with mem | mem
    · exact acceptable.admitted entry mem
    · obtain rfl := List.mem_singleton.mp mem
      exact ⟨field, rfl, admits⟩

theorem Draft.Holds.concat {d d' : Draft} (holds : d.Holds entries) {field : Field}
    (first : field.name ∉ entries.map Prod.fst)
    (reads : ∀ other, d'.datum? other = if other = field then some value else d.datum? other) :
    d'.Holds (entries ++ [(field.name, value)]) := by
  intro other found
  rw [reads other, List.mem_append, List.mem_singleton, Prod.mk.injEq]
  split
  · next same =>
    subst same
    have absent : (other.name, found) ∉ entries := fun mem => first (List.mem_map_of_mem mem)
    simp [absent, eq_comm]
  · next different =>
    have unnamed : other.name ≠ field.name := fun same => different (Field.name_inj same)
    rw [holds other found]
    simp [unnamed]

/-- An entry is read only where it is one more that can be. -/
theorem Draft.Holds.enter {d d' : Draft} (holds : d.Holds entries) (acceptable : Acceptable entries)
    (read : d.enter entry = .ok d') :
    Acceptable (entries ++ [entry]) ∧ d'.Holds (entries ++ [entry]) := by
  obtain ⟨name, value⟩ := entry
  by_cases known : ∃ field : Field, name = field.name
  · obtain ⟨field, rfl⟩ := known
    by_cases again : field.name ∈ entries.map Prod.fst
    · rw [enter_duplicate ((holds.has_iff field).mpr again)] at read
      cases read
    · rw [enter_unread fun has => again ((holds.has_iff field).mp has)] at read
      obtain ⟨admits, reads⟩ := read_ok read
      exact ⟨acceptable.concat again admits, holds.concat again reads⟩
  · rw [enter_unknown d (not_exists.mp known)] at read
    cases read

-- ---------------------------------------------------------------------------
-- All entries in turn
-- ---------------------------------------------------------------------------

/-- Whatever is read is acceptable and is what the draft holds: by induction on the entries from
the last one, as the draft that is entered into holds those before. -/
theorem holds_of_foldlM {entries : List (String × Datum)}
    (read : entries.foldlM Draft.enter {} = .ok d) : Acceptable entries ∧ d.Holds entries := by
  induction entries using List.reverseRecOn generalizing d with
  | nil =>
    cases read
    refine ⟨⟨List.nodup_nil, List.forall_mem_nil _⟩, ?_⟩
    rintro (_ | _) value <;> simp [Draft.datum?]
  | append_singleton front entry ih =>
    simp only [List.foldlM_append, List.foldlM_cons, List.foldlM_nil, bind_pure] at read
    cases first : front.foldlM Draft.enter {} with
    | error e =>
      rw [first] at read
      cases read
    | ok b =>
      rw [first] at read
      obtain ⟨acceptable, holds⟩ := ih first
      exact holds.enter acceptable read

theorem foldlM_eq_error_iff {f : β → α → Except ε β} {xs : List α} :
    xs.foldlM f b = .error e ↔ ∃ front x back c,
      xs = front ++ x :: back ∧ front.foldlM f b = .ok c ∧ f c x = .error e := by
  constructor
  · intro failed
    induction xs generalizing b with
    | nil => cases failed
    | cons x xs ih =>
      rw [List.foldlM_cons] at failed
      cases first : f b x with
      | error e' =>
        rw [first] at failed
        cases failed
        exact ⟨[], x, xs, b, rfl, rfl, first⟩
      | ok b' =>
        rw [first] at failed
        obtain ⟨front, y, back, c, rfl, before, failed⟩ := ih failed
        refine ⟨x :: front, y, back, c, rfl, ?_, failed⟩
        rw [List.foldlM_cons, first]
        exact before
  · rintro ⟨front, x, back, c, rfl, before, failed⟩
    rw [List.foldlM_append, before]
    change List.foldlM f c (x :: back) = _
    rw [List.foldlM_cons, failed]
    rfl

-- ---------------------------------------------------------------------------
-- The configuration
-- ---------------------------------------------------------------------------

structure Keeps (c : Config) (entries : List (String × Datum)) : Prop where
  given : ∀ (field : Field) value, (field.name, value) ∈ entries → c.datum field = value
  absent : ∀ field : Field, field.name ∉ entries.map Prod.fst →
    c.datum field = ({} : Config).datum field

theorem Draft.Holds.keeps {d : Draft} (holds : d.Holds entries) : d.finish.Keeps entries where
  given field value mem := by
    rw [Draft.datum_finish, (holds field value).mpr mem]
    rfl
  absent field unnamed := by
    have none : d.datum? field = none := by
      rw [Option.eq_none_iff_forall_ne_some]
      rintro value read
      exact unnamed (List.mem_map_of_mem ((holds field value).mp read))
    rw [Draft.datum_finish, none]
    rfl

theorem Keeps.eq {c d : Config} (first : c.Keeps entries) (second : d.Keeps entries) : c = d := by
  refine eq_of_datum fun field => ?_
  by_cases named : field.name ∈ entries.map Prod.fst
  · obtain ⟨⟨name, value⟩, mem, rfl⟩ := List.mem_map.mp named
    rw [first.given field value mem, second.given field value mem]
  · rw [first.absent field named, second.absent field named]

theorem Keeps.perm {c : Config} (keeps : c.Keeps entries) (perm : entries.Perm others) :
    c.Keeps others where
  given field value mem := keeps.given field value (perm.mem_iff.mpr mem)
  absent field unnamed := keeps.absent field fun named => unnamed ((perm.map _).mem_iff.mp named)

theorem Acceptable.perm (acceptable : Acceptable entries) (perm : entries.Perm others) :
    Acceptable others where
  distinct := (perm.map _).nodup_iff.mp acceptable.distinct
  admitted entry mem := acceptable.admitted entry (perm.mem_iff.mpr mem)

theorem acceptable_of_ofEntries (read : ofEntries entries = .ok c) :
    Acceptable entries ∧ c.Keeps entries := by
  obtain ⟨d, drafted, rfl⟩ := map_eq_ok_iff.mp read
  obtain ⟨acceptable, holds⟩ := holds_of_foldlM drafted
  exact ⟨acceptable, holds.keeps⟩

theorem fault_of_foldlM {entries : List (String × Datum)}
    (failed : entries.foldlM Draft.enter {} = .error e) :
    ∃ front entry back, entries = front ++ entry :: back ∧ Acceptable front ∧
      Fault front entry e := by
  obtain ⟨front, entry, back, d, split, before, failed⟩ := foldlM_eq_error_iff.mp failed
  obtain ⟨acceptable, holds⟩ := holds_of_foldlM before
  exact ⟨front, entry, back, split, acceptable, holds.enter_eq_error_iff.mp failed⟩

theorem Acceptable.foldlM (acceptable : Acceptable entries) :
    ∃ d, entries.foldlM Draft.enter {} = .ok d := by
  cases read : entries.foldlM Draft.enter {} with
  | ok d => exact ⟨d, rfl⟩
  | error e =>
    obtain ⟨front, entry, back, rfl, -, fault⟩ := fault_of_foldlM read
    exact absurd acceptable fault.not_acceptable

theorem ofEntries_eq_error_iff : ofEntries entries = .error e ↔
    ∃ front entry back, entries = front ++ entry :: back ∧ Acceptable front ∧
      Fault front entry e := by
  refine map_eq_error_iff.trans ⟨fault_of_foldlM, ?_⟩
  rintro ⟨front, entry, back, split, acceptable, fault⟩
  obtain ⟨d, before⟩ := acceptable.foldlM
  have holds := (holds_of_foldlM before).2
  exact foldlM_eq_error_iff.mpr
    ⟨front, entry, back, d, split, before, holds.enter_eq_error_iff.mpr fault⟩

theorem ofEntries_eq_ok_iff :
    ofEntries entries = .ok c ↔ Acceptable entries ∧ c.Keeps entries := by
  refine ⟨acceptable_of_ofEntries, ?_⟩
  rintro ⟨acceptable, keeps⟩
  obtain ⟨d, drafted⟩ := acceptable.foldlM
  have read : ofEntries entries = .ok d.finish := map_eq_ok_iff.mpr ⟨d, drafted, rfl⟩
  rw [read, (acceptable_of_ofEntries read).2.eq keeps]

/-- Entries are read exactly where they are acceptable, as the configuration that has their values
and the defaults elsewhere, and so are they in any other order. All others are refused for what is
wrong with the leftmost entry behind acceptable ones. -/
theorem ofEntries_exact (entries : List (String × Datum)) :
    ((∃ c, ofEntries entries = .ok c) ↔ Acceptable entries) ∧
      (∀ c, ofEntries entries = .ok c ↔ Acceptable entries ∧ c.Keeps entries) ∧
      (∀ others c, entries.Perm others → ofEntries entries = .ok c → ofEntries others = .ok c) ∧
      ∀ e, ofEntries entries = .error e ↔ ∃ front entry back,
        entries = front ++ entry :: back ∧ Acceptable front ∧ Fault front entry e := by
  refine ⟨⟨?_, ?_⟩, fun c => ofEntries_eq_ok_iff, ?_, fun e => ofEntries_eq_error_iff⟩
  · rintro ⟨c, read⟩
    exact (ofEntries_eq_ok_iff.mp read).1
  · intro acceptable
    obtain ⟨d, drafted⟩ := acceptable.foldlM
    exact ⟨d.finish, map_eq_ok_iff.mpr ⟨d, drafted, rfl⟩⟩
  · intro others c perm read
    obtain ⟨acceptable, keeps⟩ := ofEntries_eq_ok_iff.mp read
    exact ofEntries_eq_ok_iff.mpr ⟨acceptable.perm perm, keeps.perm perm⟩

def twoEntries : List (String × Datum) :=
  [("worker_thread_name", .text "ledger-io"), ("max_payload_size", .integer 4294967295)]

/-- In both orders the entries are read; behind them a name that has been given is the error, for
all that its value is none either and the next name is unknown. -/
theorem ofEntries_exact_twoEntries : twoEntries.Perm twoEntries.reverse ∧
    ofEntries twoEntries = .ok { maxPayload := 4294967295, workerName := "ledger-io" } ∧
    ofEntries twoEntries.reverse = .ok { maxPayload := 4294967295, workerName := "ledger-io" } ∧
    ofEntries (twoEntries ++ ("max_payload_size", .null) :: [("retries", .integer 3)]) =
      .error (.duplicateField .maxPayload) := by
  have read : ofEntries twoEntries = .ok { maxPayload := 4294967295, workerName := "ledger-io" } :=
    rfl
  obtain ⟨succeeds, -, unordered, -⟩ := ofEntries_exact twoEntries
  obtain ⟨-, -, -, fails⟩ :=
    ofEntries_exact (twoEntries ++ ("max_payload_size", .null) :: [("retries", .integer 3)])
  have perm : twoEntries.Perm twoEntries.reverse := (List.reverse_perm _).symm
  have again : Field.maxPayload.name ∈ twoEntries.map Prod.fst := by decide
  have acceptable : Acceptable twoEntries := succeeds.mp ⟨_, read⟩
  refine ⟨perm, read, unordered _ _ perm read, ?_⟩
  exact (fails _).mpr ⟨_, _, _, rfl, acceptable, .duplicate again⟩

end Courier.Config
