import Courier.Config.Reader

/-!
# Values of a configuration

Which data may stand where a kind of value has to, and what is said of the others. Each reader
takes exactly the data of its values, each value having one datum, and refuses the others for a
reason that is determined.
-/

namespace Courier.Config

def Wanted.count? : Wanted → Option Nat
  | word16 => some UInt16.size
  | word32 => some UInt32.size
  | word64 | size => some UInt64.size
  | text | document => none

/-- What may stand where a kind of value has to. -/
inductive Wanted.Admits : Wanted → Datum → Prop
  | word {wanted : Wanted} {n : Int} (word : wanted.count? = some count) (low : 0 ≤ n)
      (high : n < count) : Admits wanted (.integer n)
  | text (s : String) : Admits .text (.text s)

inductive Wanted.Refuses : Wanted → Datum → Error → Prop
  | outOfRange {wanted : Wanted} {n : Int} (word : wanted.count? = some count)
      (out : n < 0 ∨ count ≤ n) : Refuses wanted (.integer n) (.outOfRange n wanted)
  | notWord {wanted : Wanted} (word : wanted.count? = some count)
      (other : ∀ n, found ≠ .integer n) : Refuses wanted found (.invalidType found wanted)
  | notText (other : ∀ s, found ≠ .text s) : Refuses .text found (.invalidType found .text)

theorem Wanted.Refuses.not_admits {wanted : Wanted} (h : wanted.Refuses found e) :
    ¬ wanted.Admits found := by
  intro admits
  cases h with
  | outOfRange word out =>
    cases admits with
    | word word' low high =>
      obtain rfl := Option.some.inj (word.symm.trans word')
      omega
  | notWord word other =>
    cases admits with
    | word => exact other _ rfl
    | text => cases word
  | notText other =>
    cases admits with
    | word word => cases word
    | text s => exact other s rfl

theorem Wanted.most_succ {wanted : Wanted} (word : wanted.count? = some count) :
    wanted.most + 1 = count := by
  cases wanted <;> cases word <;> rfl

-- ---------------------------------------------------------------------------
-- Readers
-- ---------------------------------------------------------------------------

/-- A reader that takes the data of its values, and says of all others why it does not. -/
structure Wanted.Reads (wanted : Wanted) (read : Datum → Except Error α) (datum : α → Datum) :
    Prop where
  admits : ∀ a, wanted.Admits (datum a)
  ok_iff : ∀ found a, read found = .ok a ↔ found = datum a
  error_iff : ∀ found e, read found = .error e ↔ wanted.Refuses found e

theorem reads_text : Wanted.text.Reads readText .text where
  admits := .text
  ok_iff := by
    rintro found s
    cases found <;> simp [readText]
  error_iff := by
    rintro found e
    constructor
    · intro read
      cases found with
      | text s => cases read
      | _ =>
        cases read
        exact .notText (by simp)
    · intro refuses
      cases refuses with
      | outOfRange word => cases word
      | notWord word => cases word
      | notText other =>
        cases found with
        | text s => exact absurd rfl (other s)
        | _ => rfl

structure Wanted.Words (wanted : Wanted) (ofNat : Nat → α) (toNat : α → Nat) (count : Nat) :
    Prop where
  word : wanted.count? = some count
  toNat_lt : ∀ a, toNat a < count
  ofNat_toNat : ∀ a, ofNat (toNat a) = a
  toNat_ofNat : ∀ n < count, toNat (ofNat n) = n

theorem readWord_eq_ok_iff {wanted : Wanted} (word : wanted.count? = some count) :
    readWord wanted found = .ok n ↔ found = .integer n ∧ n < count := by
  have most := Wanted.most_succ word
  cases found with
  | integer m =>
    simp only [readWord, Datum.integer.injEq]
    split
    · next within =>
      rw [Except.ok.injEq]
      omega
    · next out =>
      constructor
      · intro read
        cases read
      · rintro ⟨rfl, lt⟩
        omega
  | _ => simp [readWord]

theorem readWord_eq_error_iff {wanted : Wanted} (word : wanted.count? = some count) :
    readWord wanted found = .error e ↔ wanted.Refuses found e := by
  have most := Wanted.most_succ word
  constructor
  · intro read
    cases found with
    | integer n =>
      simp only [readWord] at read
      split at read
      · cases read
      · next out =>
        cases read
        exact .outOfRange word (by omega)
    | _ =>
      cases read
      exact .notWord word (by simp)
  · intro refuses
    cases refuses with
    | outOfRange word' out =>
      obtain rfl := Option.some.inj (word.symm.trans word')
      exact if_neg (by omega)
    | notWord _ other =>
      cases found with
      | integer n => exact absurd rfl (other n)
      | _ => rfl
    | notText => cases word

theorem map_eq_ok_iff {f : α → β} {x : Except ε α} :
    f <$> x = .ok b ↔ ∃ a, x = .ok a ∧ f a = b := by
  cases x <;> simp [Functor.map, Except.map]

theorem map_eq_error_iff {f : α → β} {x : Except ε α} : f <$> x = .error e ↔ x = .error e := by
  cases x <;> simp [Functor.map, Except.map]

theorem Wanted.Words.reads {wanted : Wanted} {ofNat : Nat → α} {toNat : α → Nat}
    (words : wanted.Words ofNat toNat count) :
    wanted.Reads (fun found => ofNat <$> readWord wanted found) fun a => .integer (toNat a) where
  admits a := .word words.word (Int.natCast_nonneg _) (Int.ofNat_lt.mpr (words.toNat_lt a))
  ok_iff := by
    rintro found a
    rw [map_eq_ok_iff]
    constructor
    · rintro ⟨n, read, rfl⟩
      obtain ⟨rfl, lt⟩ := (readWord_eq_ok_iff words.word).mp read
      rw [words.toNat_ofNat n lt]
    · rintro rfl
      have read := (readWord_eq_ok_iff words.word).mpr ⟨rfl, words.toNat_lt a⟩
      exact ⟨toNat a, read, words.ofNat_toNat a⟩
  error_iff := by
    rintro found e
    exact map_eq_error_iff.trans (readWord_eq_error_iff words.word)

theorem reads_word16 : Wanted.word16.Reads readWord16 fun n => .integer n.toNat :=
  Wanted.Words.reads
    ⟨rfl, UInt16.toNat_lt_size, fun _ => UInt16.ofNat_toNat, fun _ => UInt16.toNat_ofNat_of_lt⟩

theorem reads_word32 : Wanted.word32.Reads readWord32 fun n => .integer n.toNat :=
  Wanted.Words.reads
    ⟨rfl, UInt32.toNat_lt_size, fun _ => UInt32.ofNat_toNat, fun _ => UInt32.toNat_ofNat_of_lt⟩

theorem reads_word64 : Wanted.word64.Reads readWord64 fun n => .integer n.toNat :=
  Wanted.Words.reads
    ⟨rfl, UInt64.toNat_lt_size, fun _ => UInt64.ofNat_toNat, fun _ => UInt64.toNat_ofNat_of_lt⟩

theorem reads_size : Wanted.size.Reads readSize fun n => .integer n.toNat :=
  Wanted.Words.reads
    ⟨rfl, UInt64.toNat_lt_size, fun _ => UInt64.ofNat_toNat, fun _ => UInt64.toNat_ofNat_of_lt⟩

end Courier.Config
