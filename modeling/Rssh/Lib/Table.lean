import Mathlib.Data.List.Perm.Basic
import Mathlib.Data.List.Nodup

/-!
# Tables

A finite map with the operations of a hash map, as a list of entries whose keys are all different.
Its values are counted as a list, so that what is put in and taken out can be followed as a
permutation.
-/

variable {κ ν : Type}

structure Table (κ ν : Type) where
  entries : List (κ × ν) := []
  nodup : (entries.map Prod.fst).Nodup := by exact List.nodup_nil
deriving DecidableEq

namespace Table

def keys (t : Table κ ν) : List κ := t.entries.map Prod.fst

def values (t : Table κ ν) : List ν := t.entries.map Prod.snd

variable [DecidableEq κ]

def lookup? (t : Table κ ν) (key : κ) : Option ν :=
  (t.entries.find? fun entry => entry.1 = key).map Prod.snd

def erase (t : Table κ ν) (key : κ) : Table κ ν where
  entries := t.entries.filter fun entry => entry.1 ≠ key
  nodup := t.nodup.sublist (List.filter_sublist.map Prod.fst)

/-- An entry with the same key is replaced. -/
def insert (t : Table κ ν) (key : κ) (value : ν) : Table κ ν where
  entries := (key, value) :: (t.erase key).entries
  nodup := by
    rw [List.map_cons, List.nodup_cons]
    refine ⟨?_, (t.erase key).nodup⟩
    intro hmem
    rcases List.mem_map.mp hmem with ⟨entry, hentry, rfl⟩
    simpa using (List.mem_filter.mp hentry).2

variable {t : Table κ ν} {key : κ} {value : ν}

theorem mem_keys_iff : key ∈ t.keys ↔ (t.lookup? key).isSome = true := by
  simp [keys, lookup?, List.find?_isSome]

/-- The keys without the one that was erased. -/
theorem keys_erase : (t.erase key).keys = t.keys.filter fun other => other ≠ key := by
  unfold keys erase
  rw [List.filter_map]
  rfl

/-- The new key comes first. -/
theorem keys_insert :
    (t.insert key value).keys = key :: t.keys.filter fun other => other ≠ key := by
  rw [← keys_erase]
  rfl

theorem values_insert : (t.insert key value).values = value :: (t.erase key).values := rfl

/-- Nothing is erased when nothing is found. -/
theorem erase_of_lookup?_eq_none (h : t.lookup? key = none) : t.erase key = t := by
  have hfilter : t.entries.filter (fun entry => entry.1 ≠ key) = t.entries := by
    rw [List.filter_eq_self]
    intro entry hmem
    simp only [lookup?, Option.map_eq_none_iff, List.find?_eq_none] at h
    simpa using h entry hmem
  unfold erase
  congr

/-- The value that is taken out of a table, in front of the others. -/
theorem values_perm_of_lookup? (h : t.lookup? key = some value) :
    t.values.Perm (value :: (t.erase key).values) := by
  rcases Option.map_eq_some_iff.mp h with ⟨⟨other, found⟩, hfound, rfl⟩
  have hkey : other = key := by simpa using List.find?_some hfound
  subst hkey
  have hmem := List.mem_of_find?_eq_some hfound
  have hrest : t.entries.filter (fun entry => entry.1 = other) = [(other, found)] := by
    -- the keys are all different, so no other entry has this one
    have hnodup := t.nodup
    rw [List.nodup_map_iff_inj_on (List.Nodup.of_map _ hnodup)] at hnodup
    have hperm : (t.entries.filter fun entry => entry.1 = other).Perm [(other, found)] := by
      rw [List.perm_ext_iff_of_nodup ((List.Nodup.of_map _ t.nodup).filter _)
        (List.nodup_singleton _)]
      intro entry
      rw [List.mem_filter, List.mem_singleton]
      constructor
      · intro hentry
        exact hnodup entry hentry.1 (other, found) hmem (by simpa using hentry.2)
      · rintro rfl
        exact ⟨hmem, by simp⟩
    exact List.perm_singleton.mp hperm
  have hsplit := (List.filter_append_perm (fun entry : κ × ν => decide (entry.1 = other))
    t.entries).map Prod.snd
  rw [hrest] at hsplit
  have hnot : (fun entry : κ × ν => !decide (entry.1 = other)) =
      fun entry => decide (entry.1 ≠ other) := by
    funext entry
    simp
  rw [hnot] at hsplit
  exact hsplit.symm

/-- The values, with the one of a key in front. -/
theorem values_perm_erase (t : Table κ ν) (key : κ) :
    t.values.Perm ((t.lookup? key).toList ++ (t.erase key).values) := by
  cases h : t.lookup? key with
  | none =>
      rw [erase_of_lookup?_eq_none h]
      exact List.Perm.refl _
  | some value => exact values_perm_of_lookup? h

/-- A value that is put in, when the one it replaces is kept behind others. -/
theorem values_insert_perm (t : Table κ ν) (key : κ) (value : ν) (before after : List ν) :
    ((t.insert key value).values ++ (before ++ (after ++ (t.lookup? key).toList))).Perm
      (value :: (t.values ++ (before ++ after))) := by
  rw [values_insert, List.cons_append]
  refine List.Perm.cons value ?_
  calc (t.erase key).values ++ (before ++ (after ++ (t.lookup? key).toList))
      _ = ((t.erase key).values ++ (before ++ after)) ++ (t.lookup? key).toList := by
        simp only [List.append_assoc]
      List.Perm _ ((t.lookup? key).toList ++ ((t.erase key).values ++ (before ++ after))) :=
        List.perm_append_comm
      _ = ((t.lookup? key).toList ++ (t.erase key).values) ++ (before ++ after) := by
        rw [List.append_assoc]
      List.Perm _ (t.values ++ (before ++ after)) :=
        (values_perm_erase t key).symm.append_right _

end Table
