import Mathlib.Data.List.Nodup

/-!
# Lists with one entry changed

What is counted and collected over a list when one of its entries becomes another.
-/

namespace Courier

variable {α β : Type} {l : List α} {a : α} {i : Nat}

theorem getElem?_set_of_some (h : l[i]? = some a) (b : α) (j : Nat) :
    (l.set i b)[j]? = if i = j then some b else l[j]? := by
  have hlt := (List.getElem?_eq_some_iff.mp h).1
  rw [List.getElem?_set, if_pos hlt]

theorem getElem?_concat_eq_some {b : α} (h : (l ++ [a])[i]? = some b) :
    l[i]? = some b ∨ (i = l.length ∧ a = b) := by
  rw [List.getElem?_append] at h
  split at h
  · exact .inl h
  · obtain ⟨hlt, hab⟩ := List.getElem?_eq_some_iff.mp h
    rw [List.length_singleton] at hlt
    refine .inr ⟨by omega, ?_⟩
    simpa using hab

theorem idxOf_of_getElem? [BEq α] [LawfulBEq α] (nodup : l.Nodup) (h : l[i]? = some a) :
    l.idxOf a = i := by
  obtain ⟨hlt, rfl⟩ := List.getElem?_eq_some_iff.mp h
  exact nodup.idxOf_getElem i hlt

theorem countP_set_add (p : α → Bool) (h : l[i]? = some a) (b : α) :
    (l.set i b).countP p + (if p a then 1 else 0) = l.countP p + if p b then 1 else 0 := by
  obtain ⟨hlt, rfl⟩ := List.getElem?_eq_some_iff.mp h
  have hpos (hp : p l[i] = true) : 0 < l.countP p :=
    List.countP_pos_iff.mpr ⟨_, List.getElem_mem hlt, hp⟩
  rw [List.countP_set hlt]
  split
  · next hp =>
    have := hpos hp
    omega
  · omega

theorem countP_set_same {p : α → Bool} (h : l[i]? = some a) (hb : p b = p a) :
    (l.set i b).countP p = l.countP p := by
  have hcount := countP_set_add p h b
  rw [hb] at hcount
  exact Nat.add_right_cancel hcount

theorem countP_set_joined {p : α → Bool} (h : l[i]? = some a) (ha : p a = false)
    (hb : p b = true) : (l.set i b).countP p = l.countP p + 1 := by
  simpa [ha, hb] using countP_set_add p h b

theorem countP_set_left {p : α → Bool} (h : l[i]? = some a) (ha : p a = true)
    (hb : p b = false) : (l.set i b).countP p + 1 = l.countP p := by
  simpa [ha, hb] using countP_set_add p h b

theorem perm_filterMap_set (f : α → Option β) (h : l[i]? = some a) (b : α) :
    ((f a).toList ++ (l.set i b).filterMap f).Perm ((f b).toList ++ l.filterMap f) := by
  induction l generalizing i with
  | nil => simp at h
  | cons x l ih =>
    cases i with
    | zero =>
      obtain rfl : x = a := by simpa using h
      cases hx : f x <;> cases hb : f b <;> simp [hx, hb]
      exact .swap ..
    | succ i =>
      have ih := ih (by simpa using h)
      cases hx : f x with
      | none => simpa [hx] using ih
      | some y =>
        simp only [List.set_cons_succ, List.filterMap_cons_some hx]
        exact List.perm_middle.trans ((ih.cons y).trans List.perm_middle.symm)

theorem perm_filterMap_set_same {f : α → Option β} (h : l[i]? = some a) (hb : f b = f a) :
    ((l.set i b).filterMap f).Perm (l.filterMap f) := by
  have hperm := perm_filterMap_set f h b
  rw [hb] at hperm
  exact (List.perm_append_left_iff _).mp hperm

theorem zipIdx_set (l : List α) (i : Nat) (a : α) (first : Nat) :
    (l.set i a).zipIdx first = (l.zipIdx first).set i (a, first + i) := by
  induction l generalizing i first with
  | nil => rfl
  | cons b l ih =>
    cases i with
    | zero => rfl
    | succ i =>
      simp only [List.set_cons_succ, List.zipIdx_cons, ih]
      rw [Nat.add_assoc, Nat.add_comm 1 i]

theorem nodup_zipIdx (l : List α) : l.zipIdx.Nodup := by
  refine List.Nodup.of_map Prod.snd ?_
  rw [List.zipIdx_map_snd]
  exact List.nodup_range'

theorem count_toList [DecidableEq α] (o : Option α) (a : α) :
    o.toList.count a = if o = some a then 1 else 0 := by
  cases o <;> simp [List.count_singleton]

theorem split_append_toList {o : Option α} {front back : List α}
    (h : l ++ o.toList = front ++ a :: back) :
    (∃ rest, l = front ++ a :: rest ∧ back = rest ++ o.toList) ∨
      l = front ∧ o = some a ∧ back = [] := by
  rcases List.append_eq_append_iff.mp h with ⟨mid, rfl, hmid⟩ | ⟨mid, rfl, hmid⟩
  · cases mid with
    | nil =>
      obtain ⟨rfl, hback⟩ : o = some a ∧ back = [] := by cases o <;> simp_all
      exact .inr ⟨by simp, rfl, hback⟩
    | cons => cases o <;> simp at hmid
  · cases mid with
    | nil =>
      obtain ⟨rfl, hback⟩ : o = some a ∧ back = [] := by cases o <;> simp_all
      exact .inr ⟨by simp, rfl, hback⟩
    | cons b mid =>
      obtain ⟨rfl, rfl⟩ := List.cons.inj hmid
      exact .inl ⟨mid, rfl, rfl⟩

theorem exists_last_without {p : α → Prop} (h : l.Pairwise fun a _ => p a) :
    ∃ (front : List α) (last : Option α), l = front ++ last.toList ∧ (∀ a ∈ front, p a) ∧
      ∀ a ∈ last, ¬ p a := by
  rcases List.eq_nil_or_concat' l with rfl | ⟨front, a, rfl⟩
  · exact ⟨[], none, rfl, nofun, nofun⟩
  · obtain ⟨-, -, hfront⟩ := List.pairwise_append.mp h
    have hfront : ∀ b ∈ front, p b := fun b hb => hfront b hb a List.mem_cons_self
    by_cases ha : p a
    · refine ⟨front ++ [a], none, (List.append_nil _).symm, ?_, nofun⟩
      exact List.forall_mem_append.mpr ⟨hfront, List.forall_mem_singleton.mpr ha⟩
    · refine ⟨front, some a, rfl, hfront, ?_⟩
      rintro _ ⟨⟩
      exact ha

theorem filterMap_toList (o : Option α) (f : α → Option β) :
    o.toList.filterMap f = (o.bind f).toList := by
  cases o with
  | none => rfl
  | some a => cases h : f a <;> simp [h]

theorem eraseIdx_snoc (l : List α) (a : α) (ne : l.length ≠ i) :
    (l ++ [a]).eraseIdx i = l.eraseIdx i ++ [a] := by
  rcases Nat.lt_or_ge i l.length with lt | ge
  · exact List.eraseIdx_append_of_lt_length lt [a]
  · have lt : l.length < i := Nat.lt_of_le_of_ne ge ne
    have all : (l ++ [a]).length ≤ i := by
      rw [List.length_append]
      exact lt
    rw [List.eraseIdx_of_length_le ge, List.eraseIdx_of_length_le all]

theorem eraseIdx_last (l : List α) (a : α) :
    (l ++ [a]).eraseIdx l.length = l.eraseIdx l.length := by
  rw [List.eraseIdx_append_of_length_le (Nat.le_refl _), Nat.sub_self,
    List.eraseIdx_of_length_le (Nat.le_refl _)]
  exact List.append_nil _

end Courier
