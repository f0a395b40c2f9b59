import Mathlib.Data.List.Nodup

/-! Insertion-ordered dictionaries. Assigning to a present key keeps its place,
a new key goes last, and iteration follows the entries. Key uniqueness is a
field, so no operation below can produce a dictionary with a repeated key. -/
namespace Py

structure Dict (κ ν : Type*) where
  entries : List (κ × ν)
  nodup : (entries.map Prod.fst).Nodup

namespace Dict
variable {κ ν : Type*}

@[ext] theorem ext {d e : Dict κ ν} (h : d.entries = e.entries) : d = e := by
  cases d; cases e; cases h; rfl

def empty : Dict κ ν := ⟨[], List.nodup_nil⟩

instance : EmptyCollection (Dict κ ν) := ⟨empty⟩
instance : Inhabited (Dict κ ν) := ⟨empty⟩

def keys (d : Dict κ ν) : List κ := d.entries.map Prod.fst

def values (d : Dict κ ν) : List ν := d.entries.map Prod.snd

/-- Rewrite every value in place. -/
def mapValues {μ : Type*} (d : Dict κ ν) (f : κ → ν → μ) : Dict κ μ where
  entries := d.entries.map (fun e => (e.1, f e.1 e.2))
  nodup := by simpa [List.map_map, Function.comp_def] using d.nodup

theorem mapValues_keys {μ : Type*} (d : Dict κ ν) (f : κ → ν → μ) :
    (d.mapValues f).keys = d.keys := by
  simp [mapValues, keys, List.map_map, Function.comp_def]

/-- The keys of the entries that satisfy `p`, in order. -/
def keysWhere (d : Dict κ ν) (p : κ → ν → Bool) : List κ :=
  (d.entries.filter (fun e => p e.1 e.2)).map Prod.fst

theorem keysWhere_sublist (d : Dict κ ν) (p : κ → ν → Bool) : (d.keysWhere p).Sublist d.keys :=
  List.filter_sublist.map Prod.fst

theorem keysWhere_nodup (d : Dict κ ν) (p : κ → ν → Bool) : (d.keysWhere p).Nodup :=
  d.nodup.sublist (d.keysWhere_sublist p)

variable [DecidableEq κ]

def get? (d : Dict κ ν) (k : κ) : Option ν :=
  (d.entries.find? (fun e => e.1 = k)).map Prod.snd

def contains (d : Dict κ ν) (k : κ) : Bool := (d.get? k).isSome

/-- `d[k] = v`: in place when `k` is present, otherwise appended. -/
def insert (d : Dict κ ν) (k : κ) (v : ν) : Dict κ ν where
  entries := if k ∈ d.keys then d.entries.map (fun e => if e.1 = k then (e.1, v) else e)
    else d.entries ++ [(k, v)]
  nodup := by
    split
    · have same : (d.entries.map (fun e => if e.1 = k then (e.1, v) else e)).map Prod.fst =
          d.entries.map Prod.fst := by
        rw [List.map_map]
        apply List.map_congr_left
        intro e _
        by_cases h : e.1 = k <;> simp [h]
      rw [same]
      exact d.nodup
    · rename_i absent
      have h := List.Nodup.append d.nodup (List.nodup_singleton k)
        (by simpa [List.disjoint_singleton, keys] using absent)
      simpa using h

/-- `d.pop(k, None)`. -/
def erase (d : Dict κ ν) (k : κ) : Dict κ ν where
  entries := d.entries.filter (fun e => e.1 ≠ k)
  nodup := d.nodup.sublist (List.filter_sublist.map Prod.fst)

/-- Mutate the record stored under `k`, if there is one. -/
def modify (d : Dict κ ν) (k : κ) (f : ν → ν) : Dict κ ν :=
  d.mapValues (fun j v => if j = k then f v else v)

variable {d : Dict κ ν} {k : κ} {v : ν} {es : List (κ × ν)}

theorem mem_entries :
    (k, v) ∈ d.entries ↔ d.get? k = some v := by
  obtain ⟨es, nd⟩ := d
  unfold get?
  simp only
  induction es with
  | nil => simp
  | cons e es ih =>
    obtain ⟨j, w⟩ := e
    simp only [List.map_cons, List.nodup_cons] at nd
    by_cases h : j = k
    · subst h
      have absent : (j, v) ∉ es := fun m => nd.1 (List.mem_map.mpr ⟨_, m, rfl⟩)
      simp [absent, eq_comm]
    · have other : (k, v) ≠ (j, w) := fun same => h (Prod.mk.inj same).1.symm
      simp only [List.mem_cons, other, false_or, ih nd.2]
      rw [List.find?_cons_of_neg (by simpa using h)]

theorem get?_eq_none : d.get? k = none ↔ k ∉ d.keys := by
  simp only [get?, Option.map_eq_none_iff, List.find?_eq_none, decide_eq_true_eq, keys,
    List.mem_map, not_exists, not_and]

theorem get?_isSome : (d.get? k).isSome ↔ k ∈ d.keys := by
  rw [← not_iff_not, Bool.not_eq_true, Option.isSome_eq_false_iff, Option.isNone_iff_eq_none]
  exact get?_eq_none

@[simp] theorem get?_empty (k : κ) : (∅ : Dict κ ν).get? k = none := rfl

@[simp] theorem get?_mapValues {μ : Type*} (d : Dict κ ν) (f : κ → ν → μ) (k : κ) :
    (d.mapValues f).get? k = (d.get? k).map (f k) := by
  obtain ⟨es, nd⟩ := d
  unfold get? mapValues
  simp only [List.find?_map, Option.map_map, Function.comp_def]
  cases found : es.find? (fun e => decide (e.1 = k)) with
  | none => rfl
  | some e =>
    have hk : e.1 = k := by simpa using List.find?_some found
    simp [hk]

theorem get?_modify (d : Dict κ ν) (k j : κ) (f : ν → ν) :
    (d.modify k f).get? j = if j = k then (d.get? j).map f else d.get? j := by
  rw [modify, get?_mapValues]
  split
  · rfl
  · simp

@[simp] theorem get?_modify_self (d : Dict κ ν) (k : κ) (f : ν → ν) :
    (d.modify k f).get? k = (d.get? k).map f := by
  simp [get?_modify]

theorem get?_modify_ne (d : Dict κ ν) {j : κ} (f : ν → ν) (h : j ≠ k) :
    (d.modify k f).get? j = d.get? j := by
  simp [get?_modify, h]

@[simp] theorem modify_keys (d : Dict κ ν) (k : κ) (f : ν → ν) : (d.modify k f).keys = d.keys :=
  mapValues_keys d _

theorem get?_insert (d : Dict κ ν) (k j : κ) (v : ν) :
    (d.insert k v).get? j = if j = k then some v else d.get? j := by
  by_cases present : k ∈ d.keys
  · have shape : (d.insert k v).entries = (d.modify k (fun _ => v)).entries := by
      simp only [insert, present, if_true, modify, mapValues]
      apply List.map_congr_left
      intro e _
      split <;> rfl
    have same : d.insert k v = d.modify k (fun _ => v) := ext shape
    rw [same, get?_modify]
    split
    · rename_i eq
      subst eq
      obtain ⟨w, hw⟩ := Option.isSome_iff_exists.mp (get?_isSome.mpr present)
      simp [hw]
    · rfl
  · have absent : d.entries.find? (fun e => decide (e.1 = k)) = none := by
      have h := get?_eq_none.mpr present
      simpa [get?] using h
    unfold get? insert
    simp only [present, if_false, List.find?_append]
    by_cases h : j = k
    · subst h
      simp [absent]
    · have h' : ¬ k = j := fun e => h e.symm
      simp [h, h']

@[simp] theorem get?_insert_self (d : Dict κ ν) (k : κ) (v : ν) :
    (d.insert k v).get? k = some v := by
  simp [get?_insert]

theorem get?_erase (d : Dict κ ν) (k j : κ) :
    (d.erase k).get? j = if j = k then none else d.get? j := by
  by_cases h : j = k
  · subst h
    simp only [if_true, get?_eq_none, keys, erase, List.mem_map, List.mem_filter, not_exists, not_and]
    rintro e ⟨_, keep⟩ same
    simp [same] at keep
  · simp only [h, if_false, get?, erase, List.find?_filter]
    congr 2
    funext e
    by_cases he : e.1 = j
    · subst he
      simp [h]
    · simp [he]

theorem mem_values (h : d.get? k = some v) : v ∈ d.values :=
  List.mem_map.mpr ⟨(k, v), mem_entries.mpr h, rfl⟩

/-- Assignments that agree on `k`, where `k` is assigned or already has the value. -/
theorem get?_foldl_insert (agree : ∀ e ∈ es, e.1 = k → e.2 = v) (h : (∃ e ∈ es, e.1 = k) ∨ d.get? k = some v) :
    (es.foldl (fun d e => d.insert e.1 e.2) d).get? k = some v := by
  induction es generalizing d with
  | nil =>
    rcases h with ⟨_, member, _⟩ | there
    · cases member
    · exact there
  | cons e rest ih =>
    refine ih (fun e' member => agree e' (by simp [member])) ?_
    by_cases same : e.1 = k
    · refine .inr ?_
      rw [get?_insert, if_pos same.symm, agree e (by simp) same]
    · rcases h with ⟨e', member, there⟩ | there
      · rcases List.mem_cons.mp member with rfl | member
        · exact absurd there same
        · exact .inl ⟨e', member, there⟩
      · refine .inr ?_
        rw [get?_insert, if_neg (Ne.symm same), there]

theorem insert_keys_of_absent (v : ν) (h : d.get? k = none) :
    (d.insert k v).keys = d.keys ++ [k] := by
  have absent := get?_eq_none.mp h
  simp only [keys, insert] at absent ⊢
  simp [absent]

theorem insert_keys_of_present (v : ν) (present : k ∈ d.keys) :
    (d.insert k v).keys = d.keys := by
  have rewritten : (d.insert k v).entries = d.entries.map (fun e => if e.1 = k then (e.1, v) else e) := if_pos present
  rw [keys, rewritten, List.map_map]
  refine List.map_congr_left fun e _ => ?_
  by_cases same : e.1 = k <;> simp [same]

/-- The dictionary of a list of assignments: of two to one key the last one counts. -/
def ofList (es : List (κ × ν)) : Dict κ ν := es.foldl (fun d e => d.insert e.1 e.2) ∅

theorem entries_foldl_insert (nodup : ((d.entries ++ es).map Prod.fst).Nodup) :
    (es.foldl (fun d e => d.insert e.1 e.2) d).entries = d.entries ++ es := by
  induction es generalizing d with
  | nil => simp
  | cons e rest ih =>
    have absent : e.1 ∉ d.keys := by
      intro there
      rw [List.map_append, List.nodup_append] at nodup
      exact nodup.2.2 e.1 there e.1 (by simp) rfl
    have appended : (d.insert e.1 e.2).entries = d.entries ++ [e] := by simp [insert, absent]
    rw [List.foldl_cons, ih (by rw [appended]; simpa using nodup), appended]
    simp

theorem entries_ofList (nodup : (es.map Prod.fst).Nodup) : (ofList es).entries = es :=
  entries_foldl_insert nodup

theorem mem_of_foldl_insert {e : κ × ν} (member : e ∈ (es.foldl (fun d e => d.insert e.1 e.2) d).entries) :
    e ∈ d.entries ∨ e ∈ es := by
  induction es generalizing d with
  | nil => exact .inl member
  | cons first rest ih =>
    rcases ih member with old | later
    · rw [mem_entries, get?_insert] at old
      split at old
      · rename_i same
        have first_eq : e = first := Prod.ext same (Option.some.inj old).symm
        exact .inr (first_eq ▸ List.mem_cons_self)
      · exact .inl (mem_entries.mpr old)
    · exact .inr (List.mem_cons_of_mem _ later)

theorem mem_of_ofList {e : κ × ν} (member : e ∈ (ofList es).entries) : e ∈ es := by
  rcases mem_of_foldl_insert member with none | listed
  · cases none
  · exact listed

section MapKeys
variable {κ' ν' : Type*} [DecidableEq κ'] {f : κ → κ'} (injective : f.Injective) (g : ν → ν')
include injective

theorem entries_insert_map {d : Dict κ ν} {d' : Dict κ' ν'}
    (same : d'.entries = d.entries.map (fun e => (f e.1, g e.2))) (k : κ) (v : ν) :
    (d'.insert (f k) (g v)).entries = (d.insert k v).entries.map (fun e => (f e.1, g e.2)) := by
  have there : f k ∈ d'.keys ↔ k ∈ d.keys := by
    rw [keys, keys, same, List.map_map]
    simp [injective.eq_iff]
  simp only [insert, there, same]
  split
  · rw [List.map_map, List.map_map]
    refine List.map_congr_left fun e _ => ?_
    by_cases here : e.1 = k <;> simp [injective.eq_iff, here]
  · simp

/-- Keys may be renamed before or after. -/
theorem entries_ofList_map (es : List (κ × ν)) :
    (ofList (es.map (fun e => (f e.1, g e.2)))).entries = (ofList es).entries.map (fun e => (f e.1, g e.2)) := by
  have folded (d : Dict κ ν) (d' : Dict κ' ν') (same : d'.entries = d.entries.map (fun e => (f e.1, g e.2))) :
      ((es.map (fun e => (f e.1, g e.2))).foldl (fun d e => d.insert e.1 e.2) d').entries =
        (es.foldl (fun d e => d.insert e.1 e.2) d).entries.map (fun e => (f e.1, g e.2)) := by
    induction es generalizing d d' with
    | nil => exact same
    | cons e rest ih => exact ih _ _ (entries_insert_map injective g same e.1 e.2)
  exact folded ∅ ∅ rfl

end MapKeys

/-! ### Selecting keys, and rewriting several records -/

theorem mem_keysWhere {p : κ → ν → Bool} :
    k ∈ d.keysWhere p ↔ ∃ v, d.get? k = some v ∧ p k v = true := by
  constructor
  · intro member
    obtain ⟨⟨j, v⟩, listed, rfl⟩ := List.mem_map.mp member
    obtain ⟨entry, holds⟩ := List.mem_filter.mp listed
    exact ⟨v, mem_entries.mp entry, holds⟩
  · rintro ⟨v, found, holds⟩
    exact List.mem_map.mpr ⟨(k, v), List.mem_filter.mpr ⟨mem_entries.mpr found, holds⟩, rfl⟩

/-- A rewrite after which the entry fails `p` takes the key out of the selection
and leaves the others in their order. -/
theorem keysWhere_modify {p : κ → ν → Bool} {f : ν → ν} (fails : ∀ v, p k (f v) = false) :
    (d.modify k f).keysWhere p = (d.keysWhere p).filter (· ≠ k) := by
  simp only [keysWhere, modify, mapValues, List.filter_map, List.map_map, List.filter_filter]
  refine congrArg₂ _ rfl (List.filter_congr fun e _ => ?_)
  by_cases same : e.1 = k
  · simp [same, fails]
  · simp [same]

section Rewriting
variable {ι : Type*} (key : ι → κ) (f : ι → ν → ν)

theorem keys_foldl_modify (es : List ι) (d : Dict κ ν) :
    (es.foldl (fun d e => d.modify (key e) (f e)) d).keys = d.keys := by
  induction es generalizing d with
  | nil => rfl
  | cons e rest ih => rw [List.foldl_cons, ih, modify_keys]

theorem get?_foldl_modify_of_notMem {es : List ι} {k : κ} (other : k ∉ es.map key) (d : Dict κ ν) :
    (es.foldl (fun d e => d.modify (key e) (f e)) d).get? k = d.get? k := by
  induction es generalizing d with
  | nil => rfl
  | cons e rest ih =>
    rw [List.map_cons, List.mem_cons, not_or] at other
    rw [List.foldl_cons, ih other.2, get?_modify_ne d (f e) other.1]

theorem get?_foldl_modify_of_mem {es : List ι} (nodup : (es.map key).Nodup) {e : ι} (member : e ∈ es) (d : Dict κ ν) :
    (es.foldl (fun d e => d.modify (key e) (f e)) d).get? (key e) = (d.get? (key e)).map (f e) := by
  induction es generalizing d with
  | nil => cases member
  | cons first rest ih =>
    obtain ⟨apart, nodup⟩ := List.nodup_cons.mp nodup
    rw [List.foldl_cons]
    rcases List.mem_cons.mp member with rfl | later
    · rw [get?_foldl_modify_of_notMem key f apart, get?_modify_self]
    · have other : key e ≠ key first := fun same => apart (same ▸ List.mem_map_of_mem later)
      rw [ih nodup later, get?_modify_ne d (f first) other]

end Rewriting

/-! ### Counting values -/

/-- The entry of a present key, with what stands before and behind it. -/
theorem split_of_get? (found : d.get? k = some v) :
    ∃ front back, d.entries = front ++ (k, v) :: back ∧ ∀ e ∈ front ++ back, e.1 ≠ k := by
  obtain ⟨front, back, shape⟩ := List.append_of_mem (mem_entries.mpr found)
  refine ⟨front, back, shape, ?_⟩
  have nodup := d.nodup
  rw [shape, List.map_append, List.map_cons, List.nodup_middle, List.nodup_cons, ← List.map_append] at nodup
  intro e member same
  exact nodup.1 (List.mem_map.mpr ⟨e, member, same⟩)

variable [DecidableEq ν]

theorem count_modify (found : d.get? k = some v) (f : ν → ν) (x : ν) :
    (d.modify k f).values.count x + (if v = x then 1 else 0) = d.values.count x + if f v = x then 1 else 0 := by
  obtain ⟨front, back, shape, other⟩ := split_of_get? found
  have same (es : List (κ × ν)) (apart : ∀ e ∈ es, e.1 ≠ k) :
      es.map (fun e => (e.1, if e.1 = k then f e.2 else e.2)) = es := by
    refine (List.map_congr_left fun e member => ?_).trans (List.map_id es)
    rw [if_neg (apart e member)]
    rfl
  have entries : (d.modify k f).entries = front ++ (k, f v) :: back := by
    show d.entries.map (fun e => (e.1, if e.1 = k then f e.2 else e.2)) = _
    rw [shape, List.map_append, List.map_cons, if_pos rfl,
      same front fun e member => other e (List.mem_append_left _ member),
      same back fun e member => other e (List.mem_append_right _ member)]
  simp only [values, entries, shape, List.map_append, List.map_cons, List.count_append, List.count_cons, beq_iff_eq]
  omega

theorem count_erase (found : d.get? k = some v) (x : ν) :
    (d.erase k).values.count x + (if v = x then 1 else 0) = d.values.count x := by
  obtain ⟨front, back, shape, other⟩ := split_of_get? found
  have entries : (d.erase k).entries = front ++ back := by
    show d.entries.filter (fun e => e.1 ≠ k) = _
    rw [shape, List.filter_append, List.filter_cons_of_neg (by simp), ← List.filter_append]
    exact List.filter_eq_self.mpr fun e member => by simpa using other e member
  simp only [values, entries, shape, List.map_append, List.map_cons, List.count_append, List.count_cons, beq_iff_eq]
  omega

end Dict
end Py
