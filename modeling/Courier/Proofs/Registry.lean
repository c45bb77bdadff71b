import Mathlib.Data.List.Nodup
import Courier.Registry

/-!
# What the registry finds

A client is found under its key from its registration to its removal, and by nobody
who asks for the key zero.
-/

namespace Courier.Registry

variable {r : Registry} {key : UInt64}

@[simp] theorem get?_zero (r : Registry) : r.get? 0 = none := rfl

theorem get?_of_ne (h : key ≠ 0) : r.get? key = r.entries.lookup key := by
  simp [get?, h]

theorem lookup_erase (r : Registry) (key : UInt64) : (r.erase key).entries.lookup key = none := by
  rw [List.lookup_eq_none_iff]
  rintro ⟨other, c⟩ hmem
  have hother : other ≠ key := by simpa using (List.mem_filter.mp hmem).2
  simpa using hother.symm

theorem get?_erase (r : Registry) (key : UInt64) : (r.erase key).get? key = none := by
  unfold get?
  split
  · rfl
  · exact lookup_erase r key

theorem lookup_erase_of_ne (h : other ≠ key) (r : Registry) :
    (r.erase key).entries.lookup other = r.entries.lookup other := by
  have hkeep (entries : List (UInt64 × ClientId)) :
      (entries.filter (·.1 != key)).lookup other = entries.lookup other := by
    induction entries with
    | nil => rfl
    | cons entry rest ih =>
      obtain ⟨first, c⟩ := entry
      by_cases hfirst : first = key
      · simpa [List.lookup_cons, hfirst, beq_false_of_ne h] using ih
      · simp [List.lookup_cons, hfirst, ih]
  exact hkeep r.entries

theorem get?_erase_of_ne (h : other ≠ key) (r : Registry) :
    (r.erase key).get? other = r.get? other := by
  simp [get?, lookup_erase_of_ne h]

theorem get?_erase_eq_some_iff (r : Registry) (key : UInt64) :
    (r.erase key).get? other = some c ↔ r.get? other = some c ∧ other ≠ key := by
  by_cases h : other = key
  · subst h
    simp [get?_erase]
  · simp [get?_erase_of_ne h, h]

theorem get?_register_of_ne (h : key ≠ r.next) (c : ClientId) :
    (r.register c).2.get? key = r.get? key := by
  simp [get?, register, List.lookup_append, lookup_erase_of_ne h, List.lookup_cons,
    beq_false_of_ne h]

theorem get?_register (h : r.next ≠ 0) (c : ClientId) : (r.register c).2.get? r.next = some c := by
  rw [get?_of_ne h, register, List.lookup_append, lookup_erase]
  simp

theorem remove_eq (r : Registry) (key : UInt64) :
    r.remove key = (r.get? key, if key = 0 then r else r.erase key) := by
  unfold remove get?
  split <;> rfl

theorem keys_erase (r : Registry) (key : UInt64) :
    (r.erase key).keys = r.keys.filter (· != key) := by
  rw [keys, erase, keys, List.filter_map]
  rfl

theorem keys_register (r : Registry) (c : ClientId) :
    (r.register c).2.keys = r.keys.filter (· != r.next) ++ [r.next] := by
  rw [← keys_erase]
  simp [register, keys]

theorem erase_of_not_mem (h : key ∉ r.keys) : r.erase key = r := by
  have hkeep : r.entries.filter (·.1 != key) = r.entries := by
    refine List.filter_eq_self.mpr fun x hx => ?_
    have hne : x.1 ≠ key := fun same => h (same ▸ List.mem_map_of_mem hx)
    simpa using hne
  rw [erase, hkeep]

theorem size_erase (nodup : r.keys.Nodup) (h : key ∈ r.keys) : (r.erase key).size + 1 = r.size := by
  have hkeys : (r.erase key).keys = r.keys.erase key := by
    rw [keys_erase, nodup.erase_eq_filter]
  have hsize (r : Registry) : r.size = r.keys.length := (List.length_map _).symm
  rw [hsize, hsize, hkeys, List.length_erase_of_mem h]
  exact Nat.sub_add_cancel (List.length_pos_of_mem h)

theorem mem_keys_of_get? (h : r.get? key = some c) : key ∈ r.keys := by
  unfold get? at h
  split at h
  · cases h
  · obtain ⟨before, after, hsplit, -⟩ := List.lookup_eq_some_iff.mp h
    have hmem : (key, c) ∈ r.entries := hsplit ▸ List.mem_append_right _ List.mem_cons_self
    exact List.mem_map_of_mem hmem

theorem get?_register_eq_some_iff (h : r.next ≠ 0) (fresh : r.next ∉ r.keys) :
    (r.register c).2.get? key = some d ↔ r.get? key = some d ∨ (key = r.next ∧ d = c) := by
  by_cases hkey : key = r.next
  · subst hkey
    have hnone : r.get? r.next ≠ some d := fun found => fresh (mem_keys_of_get? found)
    simp [get?_register h, hnone, eq_comm]
  · simp [get?_register_of_ne hkey, hkey]

theorem nodup_erase (h : r.keys.Nodup) (key : UInt64) : (r.erase key).keys.Nodup :=
  keys_erase r key ▸ h.filter _

theorem nodup_register (h : r.keys.Nodup) (c : ClientId) : (r.register c).2.keys.Nodup := by
  rw [keys_register, ← List.concat_eq_append]
  exact (h.filter _).concat (by simp)

def clients (r : Registry) : List ClientId := r.entries.map (·.2)

theorem mem_clients_of_lookup (h : r.entries.lookup key = some c) : c ∈ r.clients := by
  obtain ⟨before, after, hsplit, -⟩ := List.lookup_eq_some_iff.mp h
  have hmem : (key, c) ∈ r.entries := hsplit ▸ List.mem_append_right _ List.mem_cons_self
  exact List.mem_map_of_mem hmem

theorem mem_clients_of_get? (h : r.get? key = some c) : c ∈ r.clients := by
  unfold get? at h
  split at h
  · cases h
  · exact mem_clients_of_lookup h

theorem clients_register (r : Registry) (c : ClientId) :
    (r.register c).2.clients = (r.erase r.next).clients ++ [c] := by
  simp [clients, register]

/-- With a key goes one reference to the client that was found under it. -/
theorem count_clients_erase (nodup : r.keys.Nodup) (key : UInt64) (c : ClientId) :
    r.clients.count c =
      (r.erase key).clients.count c + if r.entries.lookup key = some c then 1 else 0 := by
  obtain ⟨next, entries⟩ := r
  simp only [clients, erase, keys] at nodup ⊢
  induction entries with
  | nil => rfl
  | cons entry rest ih =>
    obtain ⟨first, d⟩ := entry
    obtain ⟨fresh, nodup⟩ := List.nodup_cons.mp nodup
    by_cases hfirst : first = key
    · subst hfirst
      have hkeep : rest.filter (·.1 != first) = rest :=
        congrArg entries (erase_of_not_mem (r := ⟨next, rest⟩) fresh)
      simp [hkeep, List.count_cons]
    · have hkey : (key == first) = false := beq_false_of_ne (Ne.symm hfirst)
      simp only [List.map_cons, List.count_cons, List.filter_cons, bne_iff_ne, ne_eq, hfirst,
        not_false_eq_true, if_true, List.lookup_cons, hkey, ih nodup]
      omega

end Courier.Registry
