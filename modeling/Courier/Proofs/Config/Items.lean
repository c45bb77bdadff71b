import Courier.Proofs.Config.Entries

/-!
# Configurations given by place

Values without names are read as if they stood under the names of the first fields, in the order of
declaration. What is behind the last field is never read, and never passed over either: when the
fields have been read, its presence is the error.
-/

namespace Courier.Config

/-- The values under the names of as many fields, in the order of declaration. -/
def named (items : List Datum) : List (String × Datum) := (Field.all.map Field.name).zip items

/-- Fields that have not been read are entered as they are read, by induction on the fields. -/
theorem foldlM_enter_zip {fields : List Field} {d : Draft} (distinct : fields.Nodup)
    (unread : ∀ field ∈ fields, d.datum? field = none) :
    ((fields.map Field.name).zip items).foldlM Draft.enter d =
      (fields.zip items).foldlM (fun d given => d.read given.2 given.1) d := by
  induction fields generalizing d items with
  | nil => rfl
  | cons field fields ih =>
    cases items with
    | nil => rfl
    | cons value items =>
      obtain ⟨absent, distinct⟩ := List.nodup_cons.mp distinct
      obtain ⟨first, rest⟩ := List.forall_mem_cons.mp unread
      have has : ¬ d.has field = true := by simp [Draft.has_eq, first]
      simp only [List.map_cons, List.zip_cons_cons, List.foldlM_cons, Draft.enter_unread has]
      cases read : d.read value field with
      | error e => rfl
      | ok d' =>
        refine ih distinct fun other mem => ?_
        rw [(Draft.read_ok read).2 other, if_neg (ne_of_mem_of_not_mem mem absent)]
        exact rest other mem

@[simp] theorem item_nil (place : Nat) (read : Datum → Except Error α) (default : α) :
    item [] place read default = pure default := rfl

@[simp] theorem item_zero (value : Datum) (items : List Datum) (read : Datum → Except Error α)
    (default : α) : item (value :: items) 0 read default = read value := rfl

@[simp] theorem item_succ (value : Datum) (items : List Datum) (place : Nat)
    (read : Datum → Except Error α) (default : α) :
    item (value :: items) (place + 1) read default = item items place read default := rfl

theorem map_throw (f : α → β) (e : ε) : f <$> (throw e : Except ε α) = throw e := rfl

theorem ofItems_eq_fold (items : List Datum) : ofItems items =
    Draft.finish <$> (Field.all.zip items).foldlM (fun d given => d.read given.2 given.1) {} >>=
      fun c => if 6 < items.length then throw (.tooManyItems items.length) else pure c := by
  -- however many of the fields are given, both sides are the readings of these in a row
  rcases items with _ | ⟨a, _ | ⟨b, _ | ⟨c, _ | ⟨d, _ | ⟨e, _ | ⟨f, items⟩⟩⟩⟩⟩⟩ <;>
    simp [ofItems, Field.all, Draft.read, Draft.finish, map_throw]

theorem ofItems_eq (items : List Datum) : ofItems items =
    ofEntries (named items) >>=
      fun c => if 6 < items.length then throw (.tooManyItems items.length) else pure c := by
  have unread : ∀ field ∈ Field.all, ({} : Draft).datum? field = none := by
    rintro (_ | _) - <;> rfl
  rw [ofItems_eq_fold, ← foldlM_enter_zip (by decide) unread]
  rfl

theorem ofItems_of_room (room : items.length ≤ 6) : ofItems items = ofEntries (named items) := by
  simp only [ofItems_eq, if_neg (Nat.not_lt.mpr room), bind_pure]

theorem named_take (items : List Datum) : named (items.take 6) = named items := by
  have whole (items : List Datum) : (named items).take 6 = named items :=
    List.take_of_length_le (by rw [named, List.length_zip]; exact Nat.min_le_left ..)
  have cut : (named items).take 6 = ((Field.all.map Field.name).take 6).zip (items.take 6) :=
    List.take_zipWith
  rw [← whole items, cut]
  rfl

theorem ofItems_take (items : List Datum) : ofItems (items.take 6) = ofEntries (named items) := by
  rw [ofItems_of_room (List.length_take_le 6 items), named_take]

/-- Up to six values are read as the entries with the names of the first fields are, and to the
same error. More than six are never read: the error is that of the first six, or else the count. -/
theorem forms_agree (items : List Datum) :
    (items.length ≤ 6 → ofDatum (.sequence items) = ofDatum (.mapping (named items))) ∧
      (6 < items.length →
        (∀ e, ofDatum (.sequence (items.take 6)) = .error e →
          ofDatum (.sequence items) = .error e) ∧
        (∀ c, ofDatum (.sequence (items.take 6)) = .ok c →
          ofDatum (.sequence items) = .error (.tooManyItems items.length)) ∧
        ∀ c, ofDatum (.sequence items) ≠ .ok c) := by
  refine ⟨ofItems_of_room, fun surplus => ?_⟩
  have fails (e : Error) (failed : ofItems (items.take 6) = .error e) :
      ofItems items = .error e := by
    rw [ofItems_take] at failed
    rw [ofItems_eq, failed]
    rfl
  have refuses (c : Config) (read : ofItems (items.take 6) = .ok c) :
      ofItems items = .error (.tooManyItems items.length) := by
    rw [ofItems_take] at read
    rw [ofItems_eq, read]
    exact if_pos surplus
  refine ⟨fails, refuses, fun c read => ?_⟩
  cases first : ofItems (items.take 6) with
  | error e => cases (fails e first).symm.trans read
  | ok c' => cases (refuses c' first).symm.trans read

def surplusItems : List Datum :=
  [.integer 4294967295, .integer 18446744073709551615, .integer 65535, .text "", .integer 0,
    .integer 18446744073709551615, .null]

theorem forms_agree_surplus :
    (surplusItems.take 4).length ≤ 6 ∧
      ofDatum (.sequence (surplusItems.take 4)) = ofDatum (.mapping
        [("max_payload_size", .integer 4294967295),
          ("max_addresses", .integer 18446744073709551615), ("default_port", .integer 65535),
          ("worker_thread_name", .text "")]) ∧
      6 < surplusItems.length ∧
      ofDatum (.sequence (surplusItems.take 6)) = .ok
        { maxPayload := 4294967295, maxAddresses := 18446744073709551615, defaultPort := 65535,
          workerName := "", connectTimeout := 0, requestTimeout := 18446744073709551615 } ∧
      ofDatum (.sequence surplusItems) = .error (.tooManyItems 7) := by
  have room : (surplusItems.take 4).length ≤ 6 := by decide
  have surplus : 6 < surplusItems.length := by decide
  have read : ofDatum (.sequence (surplusItems.take 6)) = .ok
      { maxPayload := 4294967295, maxAddresses := 18446744073709551615, defaultPort := 65535,
        workerName := "", connectTimeout := 0, requestTimeout := 18446744073709551615 } := rfl
  obtain ⟨agree, -⟩ := forms_agree (surplusItems.take 4)
  obtain ⟨-, tooMany⟩ := forms_agree surplusItems
  exact ⟨room, agree room, surplus, read, (tooMany surplus).2.1 _ read⟩

end Courier.Config
