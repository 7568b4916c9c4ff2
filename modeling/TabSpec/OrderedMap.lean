/-! Finite maps from texts, kept in increasing order of their keys. The order is that of code
points, so listing a map shows its keys sorted. -/
namespace TabSpec

/-- A map from texts, as the list of its entries by increasing key. -/
structure OrderedMap (Value : Type) where
  entries : List (String × Value)
deriving Repr, BEq, DecidableEq, Inhabited

namespace OrderedMap

variable {Value : Type}

def empty : OrderedMap Value := ⟨[]⟩

instance : EmptyCollection (OrderedMap Value) := ⟨empty⟩

private def insertEntry (key : String) (value : Value) :
    List (String × Value) → List (String × Value)
  | [] => [(key, value)]
  | (other, kept) :: rest =>
    if key < other then (key, value) :: (other, kept) :: rest
    else if key = other then (key, value) :: rest
    else (other, kept) :: insertEntry key value rest

/-- Set the value of a key, replacing an earlier one. -/
def insert (map : OrderedMap Value) (key : String) (value : Value) : OrderedMap Value :=
  ⟨insertEntry key value map.entries⟩

/-- The value of a key. -/
def get? (map : OrderedMap Value) (key : String) : Option Value :=
  (map.entries.find? fun entry => entry.1 == key).map (·.2)

def contains (map : OrderedMap Value) (key : String) : Bool := (map.get? key).isSome

/-- The entries whose key satisfies `keep`. -/
def filterKeys (map : OrderedMap Value) (keep : String → Bool) : OrderedMap Value :=
  ⟨map.entries.filter fun entry => keep entry.1⟩

def keys (map : OrderedMap Value) : List String := map.entries.map (·.1)

def isEmpty (map : OrderedMap Value) : Bool := map.entries.isEmpty

/-- Insert the pairs in order, so that the last value of a key stays. -/
def ofList (pairs : List (String × Value)) : OrderedMap Value :=
  pairs.foldl (fun map (key, value) => map.insert key value) empty

/-- The entries of `upper` on top of those of `base`. -/
def union (base upper : OrderedMap Value) : OrderedMap Value :=
  upper.entries.foldl (fun map (key, value) => map.insert key value) base

theorem get?_insert (map : OrderedMap Value) (key other : String) (value : Value) :
    (map.insert key value).get? other = if key = other then some value else map.get? other := by
  obtain ⟨entries⟩ := map
  simp only [insert, get?]
  induction entries with
  | nil => by_cases same : key = other <;> simp [insertEntry, same]
  | cons entry rest ih =>
    obtain ⟨name, kept⟩ := entry
    simp only [insertEntry]
    by_cases before : key < name
    · rw [if_pos before]
      by_cases same : key = other <;> simp [same]
    · rw [if_neg before]
      by_cases equal : key = name
      · subst equal
        by_cases same : key = other <;> simp [same]
      · rw [if_neg equal]
        by_cases found : name = other
        · have apart : key ≠ other := fun same => equal (same.trans found.symm)
          simp [found, apart]
        · simpa [found] using ih

/-- Insertions at other keys keep the value of a key. -/
theorem get?_foldl_insert_of_ne {Entry : Type} (name : Entry → String) (value : Entry → Value)
    {entries : List Entry} {key : String} (apart : ∀ entry ∈ entries, name entry ≠ key)
    (map : OrderedMap Value) :
    (entries.foldl (fun map entry => map.insert (name entry) (value entry)) map).get? key =
      map.get? key := by
  induction entries generalizing map with
  | nil => rfl
  | cons entry rest ih =>
    rw [List.foldl_cons, ih fun other member => apart other (List.mem_cons_of_mem _ member),
      get?_insert, if_neg (apart entry List.mem_cons_self)]

/-- What a map knows is among the pairs that it is made of. -/
theorem mem_of_get?_ofList {pairs : List (String × Value)} {key : String} {value : Value}
    (found : (ofList pairs).get? key = some value) : (key, value) ∈ pairs := by
  have folded (pairs : List (String × Value)) (map : OrderedMap Value)
      (found : (pairs.foldl (fun map pair => map.insert pair.1 pair.2) map).get? key = some value) :
      (key, value) ∈ pairs ∨ map.get? key = some value := by
    induction pairs generalizing map with
    | nil => exact .inr found
    | cons pair rest ih =>
      rcases ih (map.insert pair.1 pair.2) found with member | found
      · exact .inl (List.mem_cons_of_mem _ member)
      · rw [get?_insert] at found
        split at found
        · rename_i same
          cases found
          exact .inl (same ▸ List.mem_cons_self)
        · exact .inr found
  exact (folded pairs .empty found).resolve_right nofun

/-- A map made of pairs with different keys knows each of them. -/
theorem get?_ofList_of_mem {pairs : List (String × Value)} (apart : (pairs.map (·.1)).Nodup)
    {key : String} {value : Value} (member : (key, value) ∈ pairs) :
    (ofList pairs).get? key = some value := by
  obtain ⟨front, back, rfl⟩ := List.append_of_mem member
  have behind : ∀ entry ∈ back, entry.1 ≠ key := by
    intro entry later same
    rw [List.map_append, List.map_cons, List.nodup_append, List.nodup_cons] at apart
    exact apart.2.1.1 (List.mem_map.mpr ⟨entry, later, same⟩)
  rw [ofList, List.foldl_append, List.foldl_cons]
  refine (get?_foldl_insert_of_ne (fun entry : String × Value => entry.1) (·.2) behind _).trans ?_
  rw [get?_insert, if_pos rfl]

/-- What is filtered out may be set before. -/
theorem filterKeys_insert {keep : String → Bool} {key : String} (dropped : keep key = false)
    (map : OrderedMap Value) (value : Value) :
    (map.insert key value).filterKeys keep = map.filterKeys keep := by
  obtain ⟨entries⟩ := map
  simp only [insert, filterKeys, mk.injEq]
  induction entries with
  | nil => simp [insertEntry, dropped]
  | cons entry rest ih =>
    obtain ⟨name, kept⟩ := entry
    simp only [insertEntry]
    split
    · simp [dropped]
    · split
      · rename_i same
        subst same
        simp [dropped]
      · simp only [List.filter_cons, ih]

/-! ### Order of the keys -/

/-- The keys increase. -/
def Sorted (map : OrderedMap Value) : Prop := map.entries.Pairwise (·.1 < ·.1)

theorem sorted_empty : (empty : OrderedMap Value).Sorted := .nil

private theorem mem_insertEntry {key : String} {value : Value} {entry : String × Value}
    {entries : List (String × Value)} (member : entry ∈ insertEntry key value entries) :
    entry = (key, value) ∨ entry ∈ entries := by
  induction entries with
  | nil => exact .inl (List.mem_singleton.mp member)
  | cons other rest ih =>
    simp only [insertEntry] at member
    split at member
    · exact List.mem_cons.mp member
    · split at member
      · exact (List.mem_cons.mp member).imp_right (List.mem_cons_of_mem _)
      · rcases List.mem_cons.mp member with rfl | later
        · exact .inr List.mem_cons_self
        · exact (ih later).imp_right (List.mem_cons_of_mem _)

/-- An entry is put in its place. -/
theorem Sorted.insert {map : OrderedMap Value} (sorted : map.Sorted) (key : String)
    (value : Value) : (map.insert key value).Sorted := by
  obtain ⟨entries⟩ := map
  unfold Sorted at sorted ⊢
  simp only [OrderedMap.insert] at sorted ⊢
  induction entries with
  | nil => exact List.pairwise_singleton ..
  | cons other rest ih =>
    obtain ⟨above, later⟩ := List.pairwise_cons.mp sorted
    simp only [insertEntry]
    by_cases before : key < other.1
    · rw [if_pos before]
      refine List.pairwise_cons.mpr ⟨?_, sorted⟩
      intro entry member
      rcases List.mem_cons.mp member with rfl | behind
      · exact before
      · exact String.lt_trans before (above entry behind)
    · rw [if_neg before]
      by_cases same : key = other.1
      · subst same
        rw [if_pos rfl]
        exact List.pairwise_cons.mpr ⟨above, later⟩
      · rw [if_neg same]
        refine List.pairwise_cons.mpr ⟨?_, ih later⟩
        intro entry member
        rcases mem_insertEntry member with rfl | old
        · exact Std.lt_of_le_of_ne (String.not_lt.mp before) (Ne.symm same)
        · exact above entry old

/-- The entry of a key stands between those of smaller and those of larger keys. -/
theorem Sorted.exists_of_get? {map : OrderedMap Value} (sorted : map.Sorted) {key : String}
    {value : Value} (found : map.get? key = some value) :
    ∃ front back, map.entries = front ++ (key, value) :: back ∧
      ∀ entry ∈ back, key < entry.1 := by
  obtain ⟨⟨name, kept⟩, first, rfl⟩ := Option.map_eq_some_iff.mp found
  obtain ⟨same, front, back, whole, _⟩ := List.find?_eq_some_iff_append.mp first
  obtain rfl : name = key := eq_of_beq same
  refine ⟨front, back, whole, ?_⟩
  rw [Sorted, whole, List.pairwise_append, List.pairwise_cons] at sorted
  exact sorted.2.1.1

end OrderedMap
end TabSpec
