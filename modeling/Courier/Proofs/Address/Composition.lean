import Courier.Proofs.Address.Lists

/-!
# Lists put together

What is wrong with a list is asked in a fixed order: bytes that are no text, a blank text, too many
entries, the leftmost entry that cannot be read. Two lists with a comma between them are read as
the first and then the second.
-/

namespace Courier.Address

-- ---------------------------------------------------------------------------
-- Where a text is split
-- ---------------------------------------------------------------------------

/-- The texts between the commas: none of them has one, and put together they are the whole. -/
structure Splits (text : List Char) (es : List (List Char)) : Prop where
  nonempty : es ≠ []
  commaless : ∀ entry ∈ es, ',' ∉ entry
  whole : joined es = text

theorem Splits.entries_eq (h : Splits text es) : entries text = es := by
  rw [← h.whole]
  exact entries_joined h.commaless h.nonempty

theorem exists_entries_cons (text : List Char) : ∃ first rest, entries text = first :: rest :=
  ⟨_, _, rfl⟩

theorem commaless_entries (text : List Char) : ∀ entry ∈ entries text, ',' ∉ entry := by
  induction text with
  | nil => simp [entries]
  | cons c text ih =>
    rw [entries_cons]
    obtain ⟨first, rest, split⟩ := exists_entries_cons text
    rw [split] at ih ⊢
    obtain ⟨head, tail⟩ := List.forall_mem_cons.mp ih
    split
    · exact List.forall_mem_cons.mpr ⟨List.not_mem_nil, ih⟩
    · next other =>
      refine List.forall_mem_cons.mpr ⟨?_, tail⟩
      rw [List.mem_cons, not_or]
      exact ⟨Ne.symm other, head⟩

theorem splits_entries (text : List Char) : Splits text (entries text) where
  nonempty := by
    obtain ⟨first, rest, split⟩ := exists_entries_cons text
    simp [split]
  commaless := commaless_entries text
  whole := by
    rw [entries_eq_splitOn]
    exact List.intercalate_splitOn ','

theorem length_entries (text : List Char) : (entries text).length = text.count ',' + 1 := by
  induction text with
  | nil => rfl
  | cons c text ih =>
    rw [entries_cons, List.count_cons]
    split
    · next comma => simp [comma, ih]
    · next other => simp [other, ih]

theorem entries_append (front back : List Char) :
    entries (front ++ ',' :: back) = entries front ++ entries back := by
  induction front with
  | nil => rw [List.nil_append, entries_cons, if_pos rfl]; rfl
  | cons c front ih =>
    rw [List.cons_append, entries_cons, entries_cons, ih]
    split
    · rfl
    · obtain ⟨first, rest, split⟩ := exists_entries_cons front
      rw [split]
      rfl

theorem entries_of_trim_eq_nil (blank : Text.trim text = []) : entries text = [text] := by
  have commaless : ',' ∉ text := fun comma =>
    ne_comma_of_isBlank ((trim_eq_nil_iff text).mp blank ',' comma) rfl
  have splits : Splits text [text] := by
    refine ⟨by simp, List.forall_mem_singleton.mpr commaless, ?_⟩
    rw [joined, List.intercalate_singleton]
  exact splits.entries_eq

-- ---------------------------------------------------------------------------
-- All entries in turn
-- ---------------------------------------------------------------------------

theorem mapM_eq_error_iff {α β ε : Type} {f : α → Except ε β} {xs : List α} {e : ε} :
    xs.mapM f = .error e ↔ ∃ front x back, xs = front ++ x :: back ∧
      (∀ y ∈ front, ∃ b, f y = .ok b) ∧ f x = .error e := by
  induction xs with
  | nil => simp [pure, Except.pure]
  | cons x xs ih =>
    rw [List.mapM_cons]
    cases first : f x with
    | error e' =>
      simp only [bind, Except.bind, Except.error.injEq]
      constructor
      · rintro rfl
        exact ⟨[], x, xs, rfl, List.forall_mem_nil _, first⟩
      · rintro ⟨front, y, back, split, read, failed⟩
        cases front with
        | nil =>
          cases split
          exact Except.error.inj (first.symm.trans failed)
        | cons z front =>
          cases split
          obtain ⟨b, ok⟩ := read x List.mem_cons_self
          cases first.symm.trans ok
    | ok b =>
      have rest : (do let bs ← xs.mapM f; pure (b :: bs)) = .error e ↔ xs.mapM f = .error e := by
        cases xs.mapM f with
        | error e' => simp [bind, Except.bind]
        | ok bs => simp [bind, Except.bind, pure, Except.pure]
      refine rest.trans (ih.trans ?_)
      constructor
      · rintro ⟨front, y, back, rfl, read, failed⟩
        exact ⟨x :: front, y, back, rfl, List.forall_mem_cons.mpr ⟨⟨b, first⟩, read⟩, failed⟩
      · rintro ⟨front, y, back, split, read, failed⟩
        cases front with
        | nil =>
          cases split
          cases first.symm.trans failed
        | cons z front =>
          cases split
          exact ⟨front, y, back, rfl, fun z hz => read z (List.mem_cons_of_mem _ hz), failed⟩

theorem parse_eq (text : List Char) (limit : Nat) (defaultPort : UInt16) :
    parse text limit defaultPort =
      if Text.trim text = [] then .error .empty
      else if limit < text.count ',' + 1 then .error (.limitExceeded (text.count ',' + 1) limit)
      else (entries text).mapM fun entry => parseEntry (Text.trim entry) defaultPort := by
  simp only [parse, length_entries]

theorem trim_ne_nil_iff (text : List Char) :
    Text.trim text ≠ [] ↔ ∃ c ∈ text, Text.isBlank c = false := by
  rw [Ne, trim_eq_nil_iff]
  simp

/-- What is said about a list, in the order in which it is asked. -/
inductive Verdict (limit : Nat) (defaultPort : UInt16) (text : List Char) :
    Except Error (List Endpoint) → Prop
  | empty (blank : ∀ c ∈ text, Text.isBlank c = true) :
      Verdict limit defaultPort text (.error .empty)
  | limitExceeded (solid : ∃ c ∈ text, Text.isBlank c = false) (many : limit < text.count ',' + 1) :
      Verdict limit defaultPort text (.error (.limitExceeded (text.count ',' + 1) limit))
  | malformed (solid : ∃ c ∈ text, Text.isBlank c = false) (room : text.count ',' + 1 ≤ limit)
      (splits : Splits text (front ++ entry :: back))
      (read : ∀ earlier ∈ front, ∃ e, parseEntry (Text.trim earlier) defaultPort = .ok e)
      (unread : ∀ e, parseEntry (Text.trim entry) defaultPort ≠ .ok e) :
      Verdict limit defaultPort text (.error (.malformed (String.ofList (Text.trim entry))))
  | ok (solid : ∃ c ∈ text, Text.isBlank c = false) (room : text.count ',' + 1 ≤ limit)
      (splits : Splits text es)
      (read : List.Forall₂ (fun entry e => parseEntry (Text.trim entry) defaultPort = .ok e)
        es endpoints)
      (count : endpoints.length = text.count ',' + 1) :
      Verdict limit defaultPort text (.ok endpoints)

theorem parse_eq_iff_verdict :
    parse text limit defaultPort = r ↔ Verdict limit defaultPort text r := by
  rw [parse_eq]
  constructor
  · rintro rfl
    split
    · next blank => exact .empty ((trim_eq_nil_iff text).mp blank)
    · next solid =>
      have solid := (trim_ne_nil_iff text).mp solid
      split
      · next many => exact .limitExceeded solid many
      · next room =>
        have room := Nat.not_lt.mp room
        cases read : (entries text).mapM fun entry => parseEntry (Text.trim entry) defaultPort with
        | ok endpoints =>
          have all := forall₂_of_mapM read
          have count := all.length_eq
          rw [length_entries] at count
          exact .ok solid room (splits_entries text) all count.symm
        | error e =>
          obtain ⟨front, entry, back, split, earlier, failed⟩ := mapM_eq_error_iff.mp read
          have splits := splits_entries text
          rw [split] at splits
          rcases parseEntry_cases (Text.trim entry) defaultPort with ⟨form, e', -, ok⟩ | malformed
          · cases failed.symm.trans ok
          · cases failed.symm.trans malformed
            refine .malformed solid room splits earlier fun e' ok => ?_
            cases failed.symm.trans ok
  · intro verdict
    cases verdict with
    | empty blank => exact if_pos ((trim_eq_nil_iff text).mpr blank)
    | limitExceeded solid many => rw [if_neg ((trim_ne_nil_iff text).mpr solid), if_pos many]
    | @malformed front entry back solid room splits read unread =>
      rw [if_neg ((trim_ne_nil_iff text).mpr solid), if_neg (Nat.not_lt.mpr room),
        splits.entries_eq]
      refine mapM_eq_error_iff.mpr ⟨front, entry, back, rfl, read, ?_⟩
      rcases parseEntry_cases (Text.trim entry) defaultPort with ⟨form, e, -, ok⟩ | malformed
      · exact absurd ok (unread e)
      · exact malformed
    | ok solid room splits read =>
      rw [if_neg ((trim_ne_nil_iff text).mpr solid), if_neg (Nat.not_lt.mpr room),
        splits.entries_eq]
      exact mapM_of_forall₂ read

theorem parseBytes_of_utf8 {text : List Char} (utf8 : bytes.toByteArray = text.utf8Encode) :
    parseBytes bytes limit defaultPort = parse text limit defaultPort := by
  simp only [parseBytes, utf8, List.utf8Decode?_utf8Encode]

theorem parseBytes_of_invalid (invalid : ¬ bytes.toByteArray.IsValidUTF8) :
    parseBytes bytes limit defaultPort = .error .notUtf8 := by
  have none : bytes.toByteArray.utf8Decode? = none := by
    rw [← Option.not_isSome_iff_eq_none, ByteArray.isSome_utf8Decode?_iff]
    exact invalid
  simp only [parseBytes, none]

-- ---------------------------------------------------------------------------
-- Two lists in one
-- ---------------------------------------------------------------------------

/-- A blank text would be an entry without anything, which is none. -/
theorem parse_eq_ok_iff : parse text limit defaultPort = .ok endpoints ↔
    text.count ',' + 1 ≤ limit ∧
      ((entries text).mapM fun entry => parseEntry (Text.trim entry) defaultPort) =
        .ok endpoints := by
  rw [parse_eq]
  split
  · next blank =>
    rw [entries_of_trim_eq_nil blank, List.mapM_cons, blank]
    constructor
    · nofun
    · rintro ⟨-, read⟩
      cases read
  · split
    · next many =>
      constructor
      · nofun
      · rintro ⟨room, -⟩
        omega
    · next room => exact ⟨fun read => ⟨Nat.not_lt.mp room, read⟩, And.right⟩

theorem count_append_comma (front back : List Char) :
    (front ++ ',' :: back).count ',' + 1 = front.count ',' + 1 + (back.count ',' + 1) := by
  rw [List.count_append, List.count_cons_self]
  omega

theorem parse_append_eq_ok_iff (room : front.count ',' + back.count ',' + 2 ≤ limit) :
    parse (front ++ ',' :: back) limit defaultPort = .ok endpoints ↔
      ∃ xs ys, parse front limit defaultPort = .ok xs ∧ parse back limit defaultPort = .ok ys ∧
        endpoints = xs ++ ys := by
  have fits : (front ++ ',' :: back).count ',' + 1 ≤ limit := by
    rw [count_append_comma]
    omega
  have fitsFront : front.count ',' + 1 ≤ limit := by omega
  have fitsBack : back.count ',' + 1 ≤ limit := by omega
  simp only [parse_eq_ok_iff, fits, fitsFront, fitsBack, true_and, entries_append, List.mapM_append]
  cases (entries front).mapM fun entry => parseEntry (Text.trim entry) defaultPort with
  | error e => simp [bind, Except.bind]
  | ok xs =>
    cases (entries back).mapM fun entry => parseEntry (Text.trim entry) defaultPort with
    | error e => simp [bind, Except.bind]
    | ok ys => simp [bind, Except.bind, pure, Except.pure, eq_comm]

/-- Where the first list is read, what is wrong with an entry of the second is wrong with both. -/
theorem parse_append_malformed (room : front.count ',' + back.count ',' + 2 ≤ limit)
    (read : parse front limit defaultPort = .ok xs)
    (failed : parse back limit defaultPort = .error (.malformed e)) :
    parse (front ++ ',' :: back) limit defaultPort = .error (.malformed e) := by
  obtain ⟨-, first⟩ := parse_eq_ok_iff.mp read
  rw [parse_eq] at failed ⊢
  have solid : Text.trim (front ++ ',' :: back) ≠ [] :=
    (trim_ne_nil_iff _).mpr ⟨',', by simp, by decide⟩
  rw [if_neg solid, if_neg (by rw [count_append_comma]; omega), entries_append, List.mapM_append,
    first]
  split at failed
  · cases failed
  · split at failed
    · cases failed
    · rw [failed]
      rfl

/-- Bytes that are no text come before a blank text, that before too many entries, and those before
the leftmost entry that cannot be read; else there is an endpoint for each entry. And a list of two
lists is read where both are, as the endpoints of the first and then those of the second; an entry
that is wrong in the second list is wrong in both together. -/
theorem parseBytes_verdict (limit : Nat) (defaultPort : UInt16) :
    (∀ bytes r, parseBytes bytes limit defaultPort = r ↔
      ¬ bytes.toByteArray.IsValidUTF8 ∧ r = .error .notUtf8 ∨
      ∃ text : List Char, bytes.toByteArray = text.utf8Encode ∧ Verdict limit defaultPort text r) ∧
    ∀ front back, front.count ',' + back.count ',' + 2 ≤ limit →
      (∀ endpoints, parse (front ++ ',' :: back) limit defaultPort = .ok endpoints ↔
        ∃ xs ys, parse front limit defaultPort = .ok xs ∧ parse back limit defaultPort = .ok ys ∧
          endpoints = xs ++ ys) ∧
      ∀ xs e, parse front limit defaultPort = .ok xs →
        parse back limit defaultPort = .error (.malformed e) →
        parse (front ++ ',' :: back) limit defaultPort = .error (.malformed e) := by
  refine ⟨fun bytes r => ?_, fun front back room => ⟨fun endpoints => parse_append_eq_ok_iff room,
    fun xs e => parse_append_malformed room⟩⟩
  by_cases valid : bytes.toByteArray.IsValidUTF8
  · obtain ⟨text, utf8⟩ := valid
    rw [parseBytes_of_utf8 utf8, parse_eq_iff_verdict]
    constructor
    · exact fun verdict => .inr ⟨text, utf8, verdict⟩
    · rintro (⟨invalid, -⟩ | ⟨other, utf8', verdict⟩)
      · exact absurd ⟨text, utf8⟩ invalid
      · have same := congrArg ByteArray.utf8Decode? (utf8.symm.trans utf8')
        rw [List.utf8Decode?_utf8Encode, List.utf8Decode?_utf8Encode, Option.some_inj] at same
        obtain rfl : text = other := congrArg Array.toList same
        exact verdict
  · rw [parseBytes_of_invalid valid]
    constructor
    · rintro rfl
      exact .inl ⟨valid, rfl⟩
    · rintro (⟨-, rfl⟩ | ⟨text, utf8, -⟩)
      · rfl
      · exact absurd ⟨text, utf8⟩ valid

def frontList : List Char := "80, ::1".toList

def backList : List Char := "5,\u3000x ,".toList

theorem parseBytes_verdict_twoLists :
    frontList.count ',' + backList.count ',' + 2 ≤ 5 ∧
      parse frontList 5 3000 =
        .ok [.v4 .loopback 80, .v6 ⟨[0, 0, 0, 0, 0, 0, 0, 1], rfl⟩ 0 3000] ∧
      parse backList 5 3000 = .error (.malformed "x") ∧
      parse (frontList ++ ',' :: backList) 5 3000 = .error (.malformed "x") := by
  have read : parse frontList 5 3000 =
      .ok [.v4 .loopback 80, .v6 ⟨[0, 0, 0, 0, 0, 0, 0, 1], rfl⟩ 0 3000] := by rfl
  have failed : parse backList 5 3000 = .error (.malformed "x") := by rfl
  obtain ⟨-, append⟩ := parseBytes_verdict 5 3000
  obtain ⟨-, malformed⟩ := append frontList backList (by decide)
  exact ⟨by decide, read, failed, malformed _ _ read failed⟩

end Courier.Address
