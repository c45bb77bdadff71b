import Courier.Proofs.Address.Entries
import Courier.Proofs.Address.Texts
import Mathlib.Data.List.Forall2
import Mathlib.Data.List.TakeWhile

/-!
# Address lists read back

A list whose entries are texts of endpoints, or of addresses that get the default port, is read
back as it was written, with any blanks around the entries. So what was read off any list at all
can be written down and read again.
-/

namespace Courier.Address

-- ---------------------------------------------------------------------------
-- Entries and blanks
-- ---------------------------------------------------------------------------

def joined (entries : List (List Char)) : List Char := List.intercalate [','] entries

theorem entries_cons (c : Char) (text : List Char) :
    entries (c :: text) =
      if c = ',' then [] :: entries text else (entries text).modifyHead (c :: ·) := by
  simp only [entries, List.foldr_cons]
  split
  · rfl
  · rfl

theorem entries_eq_splitOn (text : List Char) : entries text = text.splitOn ',' := by
  induction text with
  | nil => rfl
  | cons c text ih =>
    rw [entries_cons, ih]
    simp [List.splitOn, List.splitOnP_cons_eq_if_modifyHead]

theorem entries_joined (found : ∀ entry ∈ es, ',' ∉ entry) (some : es ≠ []) :
    entries (joined es) = es := by
  rw [entries_eq_splitOn]
  exact List.splitOn_intercalate ',' found some

/-- The text with blanks around it. -/
inductive Padded (text : List Char) : List Char → Prop
  | intro (front back : List Char) (before : ∀ c ∈ front, Text.isBlank c = true)
      (behind : ∀ c ∈ back, Text.isBlank c = true) : Padded text (front ++ text ++ back)

theorem Padded.trim (h : Padded text entry) (nonempty : text ≠ [])
    (solid : ∀ c ∈ text, Text.isBlank c = false) : Text.trim entry = text := by
  obtain ⟨front, back, before, behind⟩ := h
  have dropped (front text back : List Char) (before : ∀ c ∈ front, Text.isBlank c = true)
      (nonempty : text ≠ []) (solid : ∀ c ∈ text, Text.isBlank c = false) :
      (front ++ (text ++ back)).dropWhile Text.isBlank = text ++ back := by
    obtain ⟨c, more, rfl⟩ := List.exists_cons_of_ne_nil nonempty
    rw [List.dropWhile_append_of_pos before, List.cons_append,
      List.dropWhile_cons_of_neg (by simp [solid c List.mem_cons_self])]
  have ending := dropped back.reverse text.reverse [] (by simpa using behind)
    (by simpa using nonempty) (by simpa using solid)
  rw [Text.trim, Text.trimStart, List.append_assoc, dropped front text back before nonempty solid,
    Text.trimEnd, List.reverse_append]
  rw [List.append_nil] at ending
  rw [ending, List.reverse_reverse]

theorem trim_eq_nil_iff (text : List Char) :
    Text.trim text = [] ↔ ∀ c ∈ text, Text.isBlank c = true := by
  have parts := List.takeWhile_append_dropWhile (p := Text.isBlank) (l := text)
  have blank : ∀ c ∈ text.takeWhile Text.isBlank, Text.isBlank c = true :=
    List.all_eq_true.mp List.all_takeWhile
  rw [Text.trim, Text.trimEnd, List.reverse_eq_nil_iff, List.dropWhile_eq_nil_iff, Text.trimStart]
  simp only [List.mem_reverse]
  constructor
  · intro rest
    rw [← parts]
    exact List.forall_mem_append.mpr ⟨blank, rest⟩
  · intro all c hc
    exact all c ((List.dropWhile_sublist _).subset hc)

theorem isBlank_of_isDigit (h : isDigit radix c = true) : Text.isBlank c = false := by
  obtain ⟨low, high⟩ := toNat_of_isDigit h
  simp only [Text.isBlank, Text.Ranges.contains, Text.whiteSpace, List.any_cons, List.any_nil,
    Bool.or_false, Bool.or_eq_false_iff, Bool.and_eq_false_iff, decide_eq_false_iff_not]
  omega

theorem isBlank_of_endpointChar (h : EndpointChar c) : Text.isBlank c = false := by
  rcases h with (digit | rfl | rfl) | rfl | rfl | rfl
  · exact isBlank_of_isDigit digit
  all_goals decide

theorem ne_comma_of_endpointChar (h : EndpointChar c) : c ≠ ',' := by
  rintro rfl
  exact absurd h (by unfold EndpointChar IpChar; decide)

theorem ne_comma_of_isBlank (h : Text.isBlank c = true) : c ≠ ',' := by
  rintro rfl
  exact absurd h (by decide)

-- ---------------------------------------------------------------------------
-- One entry
-- ---------------------------------------------------------------------------

/-- The texts that stand for an endpoint: its own, and that of its address if it has the default
port. -/
inductive Spells (defaultPort : UInt16) : List Char → Endpoint → Prop
  | endpoint (e : Endpoint) : Spells defaultPort e.text e
  | ip (a : Ip) : Spells defaultPort a.text (a.at defaultPort)

theorem Spells.reads (h : Spells defaultPort text e) :
    ∃ form, Form.Reads defaultPort form text e := by
  cases h with
  | endpoint => exact ⟨.endpoint, .endpoint (endpointText_text e)⟩
  | ip a => exact ⟨.ip, .ip (ipText_text a)⟩

theorem Spells.endpointChar (h : Spells defaultPort text e) : ∀ c ∈ text, EndpointChar c := by
  cases h with
  | endpoint => exact (endpointText_text e).endpointChar
  | ip a => exact fun c hc => .inl ((ipText_text a).ipChar c hc)

theorem Spells.parseEntry (h : Spells defaultPort text e) :
    parseEntry text defaultPort = .ok e := by
  obtain ⟨form, reads⟩ := h.reads
  exact parseEntry_of_reads reads

theorem Spells.ne_nil (h : Spells defaultPort text e) : text ≠ [] := by
  rintro rfl
  cases h.parseEntry

-- ---------------------------------------------------------------------------
-- Whole lists
-- ---------------------------------------------------------------------------

def Names (defaultPort : UInt16) (entry : List Char) (e : Endpoint) : Prop :=
  ∃ text, Spells defaultPort text e ∧ Padded text entry

theorem Names.trim (h : Names defaultPort entry e) : Spells defaultPort (Text.trim entry) e := by
  obtain ⟨text, spells, padded⟩ := h
  rwa [padded.trim spells.ne_nil fun c hc => isBlank_of_endpointChar (spells.endpointChar c hc)]

theorem Names.no_comma (h : Names defaultPort entry e) : ',' ∉ entry := by
  obtain ⟨text, spells, ⟨front, back, before, behind⟩⟩ := h
  intro comma
  simp only [List.mem_append] at comma
  rcases comma with (comma | comma) | comma
  · exact ne_comma_of_isBlank (before _ comma) rfl
  · exact ne_comma_of_endpointChar (spells.endpointChar _ comma) rfl
  · exact ne_comma_of_isBlank (behind _ comma) rfl

theorem no_comma_of_names (names : List.Forall₂ (Names defaultPort) es endpoints) :
    ∀ entry ∈ es, ',' ∉ entry := by
  induction names with
  | nil => simp
  | cons first _ ih => exact List.forall_mem_cons.mpr ⟨first.no_comma, ih⟩

theorem mapM_of_forall₂ {α β ε : Type} {f : α → Except ε β} {xs : List α} {ys : List β}
    (h : List.Forall₂ (fun x y => f x = .ok y) xs ys) : xs.mapM f = .ok ys := by
  induction h with
  | nil => rfl
  | cons first _ ih =>
    rw [List.mapM_cons, first, ih]
    rfl

theorem forall₂_of_mapM {α β ε : Type} {f : α → Except ε β} {xs : List α} {ys : List β}
    (h : xs.mapM f = .ok ys) : List.Forall₂ (fun x y => f x = .ok y) xs ys := by
  induction xs generalizing ys with
  | nil =>
    cases h
    exact .nil
  | cons x xs ih =>
    rw [List.mapM_cons] at h
    cases first : f x with
    | error e => simp [first, bind, Except.bind] at h
    | ok y =>
      cases rest : xs.mapM f with
      | error e => simp [first, rest, bind, Except.bind] at h
      | ok zs =>
        simp only [first, rest, bind, Except.bind, pure, Except.pure, Except.ok.injEq] at h
        exact h ▸ .cons first (ih rest)

theorem joined_cons (entry : List Char) (es : List (List Char)) :
    ∃ more, joined (entry :: es) = entry ++ more := by
  cases es with
  | nil => exact ⟨[], by simp [joined]⟩
  | cons next es => exact ⟨_, by rw [joined, List.intercalate_cons_cons, List.append_assoc]⟩

theorem trim_joined_ne_nil (first : Names defaultPort entry e) (es : List (List Char)) :
    Text.trim (joined (entry :: es)) ≠ [] := by
  obtain ⟨text, spells, ⟨front, back, -, -⟩⟩ := first
  obtain ⟨c, mem⟩ := List.exists_mem_of_ne_nil _ spells.ne_nil
  obtain ⟨more, split⟩ := joined_cons (front ++ text ++ back) es
  rw [split, Ne, trim_eq_nil_iff]
  intro blank
  have solid := isBlank_of_endpointChar (spells.endpointChar c mem)
  rw [blank c (by simp [mem])] at solid
  cases solid

theorem parse_of_names (names : List.Forall₂ (Names defaultPort) es endpoints)
    (some : endpoints ≠ []) (room : endpoints.length ≤ limit) :
    parse (joined es) limit defaultPort = .ok endpoints := by
  have read : List.Forall₂ (fun entry e => parseEntry (Text.trim entry) defaultPort = .ok e)
      es endpoints := names.imp fun _ _ h => h.trim.parseEntry
  have commaless := no_comma_of_names names
  have count := names.length_eq
  cases names with
  | nil => exact absurd rfl some
  | @cons entry e es endpoints first rest =>
    simp only [parse, trim_joined_ne_nil first es, if_false, entries_joined commaless (by simp)]
    rw [if_neg (by omega)]
    exact mapM_of_forall₂ read

/-- At least one endpoint is read off every list that is accepted, and no more than there is room
for. -/
theorem length_of_parse (h : parse text limit defaultPort = .ok endpoints) :
    endpoints ≠ [] ∧ endpoints.length ≤ limit := by
  unfold parse at h
  split at h
  · cases h
  · simp only at h
    split at h
    · cases h
    · next room =>
      have count := (forall₂_of_mapM h).length_eq
      refine ⟨?_, by omega⟩
      rintro rfl
      simp [entries] at count

/-- Endpoints written down with commas between them are read back in order, and addresses with
the default port, whatever blanks stand around them. So what was read off any list can be written
down and is read again. -/
theorem parse_joined (defaultPort : UInt16) (limit : Nat) :
    (∀ es endpoints, endpoints ≠ [] → endpoints.length ≤ limit →
      List.Forall₂ (Names defaultPort) es endpoints →
        parse (joined es) limit defaultPort = .ok endpoints) ∧
    ∀ text endpoints, parse text limit defaultPort = .ok endpoints →
      ∀ port es, List.Forall₂ (fun entry e => Padded e.text entry) es endpoints →
        parse (joined es) limit port = .ok endpoints := by
  refine ⟨fun es endpoints some room names => parse_of_names names some room, ?_⟩
  intro text endpoints accepted port es written
  obtain ⟨some, room⟩ := length_of_parse accepted
  exact parse_of_names (written.imp fun _ e padded => ⟨e.text, .endpoint e, padded⟩) some room

/-- Of two runs of zeros that are equally long the first becomes the gap. -/
def twoRuns : Endpoint := .v6 ⟨[0xfe80, 0, 0, 1, 0, 0, 2, 3], rfl⟩ 5 80

def mapped : Ip := .v6 ⟨[0, 0, 0, 0, 0, 0xffff, 0x102, 0x304], rfl⟩

def writtenList : List (List Char) :=
  ["\t[fe80::1:0:0:2:3%5]:80 ".toList, "\u3000::ffff:1.2.3.4".toList]

theorem parse_joined_twoRuns :
    [twoRuns, mapped.at 3000] ≠ [] ∧
      List.Forall₂ (Names 3000) writtenList [twoRuns, mapped.at 3000] ∧
      parse (joined writtenList) 2 3000 = .ok [twoRuns, mapped.at 3000] ∧
      parse (joined [twoRuns.text, (mapped.at 3000).text]) 2 7 = .ok [twoRuns, mapped.at 3000] := by
  have names : List.Forall₂ (Names 3000) writtenList [twoRuns, mapped.at 3000] := by
    refine .cons ⟨_, .endpoint twoRuns, ?_⟩ (.cons ⟨_, .ip mapped, ?_⟩ .nil)
    · exact Padded.intro ['\t'] [' '] (List.forall_mem_singleton.mpr rfl)
        (List.forall_mem_singleton.mpr rfl)
    · exact Padded.intro ['\u3000'] [] (List.forall_mem_singleton.mpr rfl) (List.forall_mem_nil _)
  obtain ⟨written, again⟩ := parse_joined 3000 2
  have read := written writtenList [twoRuns, mapped.at 3000] (by simp) (Nat.le_refl 2) names
  have same (e : Endpoint) : Padded e.text e.text := by
    have padded : Padded e.text ([] ++ e.text ++ []) := .intro [] [] (by simp) (by simp)
    rwa [List.nil_append, List.append_nil] at padded
  exact ⟨by simp, names, read, again _ _ read 7 _ (.cons (same _) (.cons (same _) .nil))⟩

end Courier.Address
