/-!
An index: values under keys, in the order in which the keys first came. Putting a value under a
known key keeps the key's place.
-/

namespace HeaderDocs

/-- Values under keys, in the order in which the keys first came. -/
structure Index (κ : Type) (ν : Type) where
  entries : List (κ × ν) := []
deriving Repr

namespace Index

variable {κ ν : Type} [DecidableEq κ]

def find? (index : Index κ ν) (key : κ) : Option ν :=
  index.entries.lookup key

def keys (index : Index κ ν) : List κ :=
  index.entries.map Prod.fst

def values (index : Index κ ν) : List ν :=
  index.entries.map Prod.snd

def size (index : Index κ ν) : Nat :=
  index.entries.length

def isEmpty (index : Index κ ν) : Bool :=
  index.entries.isEmpty

def contains (index : Index κ ν) (key : κ) : Bool :=
  (index.find? key).isSome

def put (key : κ) (value : ν) : List (κ × ν) → List (κ × ν)
  | [] => [(key, value)]
  | entry :: entries =>
      if entry.1 = key then (key, value) :: entries else entry :: put key value entries

/-- The value put under the key: in the key's place if it has one, else at the end. -/
def insert (index : Index κ ν) (key : κ) (value : ν) : Index κ ν :=
  ⟨put key value index.entries⟩

/-- The value put under the key unless the key has one. -/
def insertNew (index : Index κ ν) (key : κ) (value : ν) : Index κ ν :=
  if index.contains key then index else index.insert key value

def erase (index : Index κ ν) (key : κ) : Index κ ν :=
  ⟨index.entries.filter fun entry => entry.1 ≠ key⟩

theorem lookup_put (key other : κ) (value : ν) (entries : List (κ × ν)) :
    (put key value entries).lookup other =
      if other = key then some value else entries.lookup other := by
  induction entries with
  | nil => by_cases h : other = key <;> simp [put, List.lookup_cons, h, beq_eq_false_iff_ne.2]
  | cons entry entries ih =>
      obtain ⟨known, old⟩ := entry
      by_cases same : known = key
      · subst same
        by_cases h : other = known
        · simp [put, h]
        · have differs : (other == known) = false := beq_eq_false_iff_ne.2 h
          simp [put, List.lookup_cons, h, differs]
      · by_cases h : other = known
        · subst h
          simp [put, same]
        · have differs : (other == known) = false := beq_eq_false_iff_ne.2 h
          simp only [put, same, if_false, List.lookup_cons, differs, ih]

@[simp] theorem find?_insert (index : Index κ ν) (key other : κ) (value : ν) :
    (index.insert key value).find? other = if other = key then some value else index.find? other :=
  lookup_put key other value index.entries

theorem put_known {key : κ} {value : ν} {entries : List (κ × ν)}
    (known : entries.lookup key = some value) :
    put key value entries = entries := by
  induction entries with
  | nil => simp at known
  | cons entry entries ih =>
      obtain ⟨first, old⟩ := entry
      by_cases same : first = key
      · subst same
        rw [List.lookup_cons_self, Option.some.injEq] at known
        rw [put, if_pos rfl, known]
      · have differs : (key == first) = false := beq_eq_false_iff_ne.2 (Ne.symm same)
        rw [List.lookup_cons, differs] at known
        rw [put, if_neg same, ih known]

theorem insert_known {index : Index κ ν} {key : κ} {value : ν}
    (known : index.find? key = some value) :
    index.insert key value = index := by
  rw [insert, put_known known]

theorem mem_values {index : Index κ ν} {key : κ} {value : ν}
    (found : index.find? key = some value) :
    value ∈ index.values := by
  obtain ⟨entries⟩ := index
  simp only [find?, values] at found ⊢
  induction entries with
  | nil => simp at found
  | cons entry entries ih =>
      rw [List.lookup_cons] at found
      cases known : key == entry.1 with
      | true =>
          simp only [known, Option.some.injEq] at found
          exact List.mem_cons.2 (Or.inl found.symm)
      | false =>
          simp only [known] at found
          exact List.mem_cons_of_mem _ (ih found)

theorem find?_insert_new (index : Index κ ν) (key other : κ) (value : ν) :
    (index.insertNew key value).find? other =
      (index.find? other).or (if other = key then some value else none) := by
  unfold insertNew contains
  by_cases same : other = key
  · subst same
    cases known : index.find? other <;> simp [known]
  · split <;> simp [same]

theorem keys_insert (index : Index κ ν) (key : κ) (value : ν) :
    (index.insert key value).keys =
      if key ∈ index.keys then index.keys else index.keys ++ [key] := by
  obtain ⟨entries⟩ := index
  simp only [insert, keys]
  induction entries with
  | nil => simp [put]
  | cons entry entries ih =>
      by_cases same : entry.1 = key
      · simp [put, same]
      · have other : ¬key = entry.1 := fun h => same h.symm
        simp only [put, same, if_false, List.map_cons, List.mem_cons, other, false_or, ih]
        by_cases known : key ∈ entries.map Prod.fst <;> simp [known]

/-- A value put under a key that a list is made without leaves the list. -/
theorem filter_map_insert {β : Type} {index : Index κ ν} {key : κ} {f : κ × ν → Option β}
    (value : ν) (left : ∀ value, f (key, value) = none) :
    (index.insert key value).entries.filterMap f = index.entries.filterMap f := by
  obtain ⟨entries⟩ := index
  simp only [insert]
  induction entries with
  | nil => simp [put, left]
  | cons entry entries ih =>
      by_cases same : entry.1 = key
      · obtain ⟨known, old⟩ := entry
        obtain rfl : known = key := same
        rw [put, if_pos rfl, List.filterMap_cons, List.filterMap_cons, left, left]
      · rw [put, if_neg same, List.filterMap_cons, List.filterMap_cons, ih]

@[simp] theorem find?_erase (index : Index κ ν) (key other : κ) :
    (index.erase key).find? other = if other = key then none else index.find? other := by
  obtain ⟨entries⟩ := index
  simp only [erase, find?]
  induction entries with
  | nil => simp
  | cons entry entries ih =>
      obtain ⟨first, old⟩ := entry
      by_cases erased : first = key
      · subst erased
        rw [List.filter_cons_of_neg (by simp), ih, List.lookup_cons]
        by_cases same : other = first
        · simp [same]
        · simp [same, beq_eq_false_iff_ne.2 same]
      · rw [List.filter_cons_of_pos (by simpa using erased), List.lookup_cons, List.lookup_cons, ih]
        by_cases same : other = first
        · subst same
          simp [erased]
        · simp [beq_eq_false_iff_ne.2 same]

theorem nodup_keys_insert {index : Index κ ν} (distinct : index.keys.Nodup) (key : κ) (value : ν) :
    (index.insert key value).keys.Nodup := by
  rw [keys_insert]
  split
  · exact distinct
  · rename_i absent
    refine List.nodup_append.2 ⟨distinct, by simp, ?_⟩
    intro known member other single same
    rw [List.mem_singleton.1 single] at same
    exact absent (same ▸ member)

theorem contains_iff {index : Index κ ν} {key : κ} :
    index.contains key = true ↔ key ∈ index.keys := by
  obtain ⟨entries⟩ := index
  simp only [contains, find?, keys]
  induction entries with
  | nil => simp
  | cons entry entries ih =>
      rw [List.lookup_cons, List.map_cons, List.mem_cons, ← ih]
      by_cases same : key = entry.1
      · simp [same]
      · have differs : (key == entry.1) = false := beq_eq_false_iff_ne.2 same
        simp [same, differs]

theorem keys_insert_new (index : Index κ ν) (key : κ) (value : ν) :
    (index.insertNew key value).keys =
      if key ∈ index.keys then index.keys else index.keys ++ [key] := by
  unfold insertNew
  split
  · rename_i known
    rw [if_pos (contains_iff.1 known)]
  · exact keys_insert index key value

theorem mem_insert {index : Index κ ν} {key : κ} {value : ν} {entry : κ × ν}
    (member : entry ∈ (index.insert key value).entries) :
    entry = (key, value) ∨ entry ∈ index.entries := by
  obtain ⟨entries⟩ := index
  simp only [insert] at member ⊢
  induction entries with
  | nil => simpa [put] using member
  | cons first entries ih =>
      by_cases same : first.1 = key
      · simp only [put, same, if_true, List.mem_cons] at member
        rcases member with rfl | later
        · exact .inl rfl
        · exact .inr (List.mem_cons_of_mem _ later)
      · simp only [put, same, if_false, List.mem_cons] at member
        rcases member with rfl | later
        · exact .inr (List.mem_cons.2 (.inl rfl))
        · exact (ih later).imp_right (List.mem_cons_of_mem _)

theorem mem_entries {index : Index κ ν} (distinct : index.keys.Nodup) {key : κ} {value : ν} :
    (key, value) ∈ index.entries ↔ index.find? key = some value := by
  obtain ⟨entries⟩ := index
  simp only [find?, keys] at distinct ⊢
  induction entries with
  | nil => simp
  | cons entry entries ih =>
      obtain ⟨known, old⟩ := entry
      rw [List.map_cons, List.nodup_cons] at distinct
      rw [List.mem_cons, List.lookup_cons, ih distinct.2]
      by_cases same : key = known
      · subst same
        have absent : entries.lookup key ≠ some value := by
          intro found
          exact distinct.1 (List.mem_map.2 ⟨(key, value), (ih distinct.2).2 found, rfl⟩)
        simp [absent, eq_comm]
      · have differs : (key == known) = false := beq_eq_false_iff_ne.2 same
        simp [same, differs]

end Index

end HeaderDocs
