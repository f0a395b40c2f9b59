import DistributedCompute.Dict
import DistributedCompute.Values

/-! What `json.loads` makes of a value that `json.dumps` wrote. A document is the tree
of its text: an object lists its members in the order of the text, and a name may
occur twice in it. A float is read back as it was written. Strings here have no
surrogates. -/
namespace Py

inductive Json
  | null
  | bool (b : Bool)
  | int (n : Int)
  | float (bits : BitVec 64)
  | str (s : String)
  | array (items : List Json)
  | object (members : List (String × Json))
  deriving Repr

/-- The name under which an entry is written. A key of another type is refused before. -/
def Key.memberName (floatRepr : BitVec 64 → String) : Key → String
  | .none => "null"
  | .bool b => if b then "true" else "false"
  | .int n => toString n
  | .float bits => floatRepr bits
  | .str s => s
  | .other ty => ty

theorem sizeOf_snd_lt {α β : Type} [SizeOf α] [SizeOf β] {e : α × β} {es : List (α × β)} (member : e ∈ es) :
    sizeOf e.2 < sizeOf es := by
  have smaller := List.sizeOf_lt_of_mem member
  obtain ⟨a, b⟩ := e
  simp only [Prod.mk.sizeOf_spec] at smaller
  dsimp only
  omega

/-- The document of a value that `json.dumps` accepts. -/
def Val.document (floatRepr : BitVec 64 → String) : Val → Json
  | .none | .object _ => .null
  | .bool b => .bool b
  | .int n => .int n
  | .float bits => .float bits
  | .str s => .str s
  | .list items | .tuple items => .array (items.map (fun v => v.document floatRepr))
  | .dict entries => .object (entries.map (fun e => (e.1.memberName floatRepr, e.2.document floatRepr)))
termination_by v => sizeOf v
decreasing_by
  all_goals simp_wf
  all_goals first | have := List.sizeOf_lt_of_mem ‹_ ∈ items› | have := sizeOf_snd_lt ‹_ ∈ entries›
  all_goals omega

/-- `json.loads`: of two members with one name the last one counts. -/
def Json.loads : Json → Val
  | .null => .none
  | .bool b => .bool b
  | .int n => .int n
  | .float bits => .float bits
  | .str s => .str s
  | .array items => .list (items.map (fun item => item.loads))
  | .object members => .dict ((Dict.ofList (members.map (fun e => (e.1, e.2.loads)))).entries.map
      (fun e => (.str e.1, e.2)))
termination_by document => sizeOf document
decreasing_by
  all_goals simp_wf
  all_goals first | have := List.sizeOf_lt_of_mem ‹_ ∈ items› | have := sizeOf_snd_lt ‹_ ∈ members›
  all_goals omega

/-- The text of the exception that `json.loads` raises on an integer, if it raises. -/
def intReadError (n : Int) : Option String :=
  if tooManyDigits n then
    some ("Exceeds the limit (4300 digits) for integer string conversion: value has " ++
      toString (Nat.toDigits 10 n.natAbs).length ++
      " digits; use sys.set_int_max_str_digits() to increase the limit")
  else .none

mutual
/-- `json.loads` converts the integers in the order of the text. -/
def Json.readError : Json → Option String
  | .int n => intReadError n
  | .array items => itemsReadError items
  | .object members => membersReadError members
  | _ => .none

def itemsReadError : List Json → Option String
  | [] => .none
  | item :: rest => item.readError <|> itemsReadError rest

def membersReadError : List (String × Json) → Option String
  | [] => .none
  | (_, item) :: rest => item.readError <|> membersReadError rest
end

mutual
/-- How many arrays and objects lie around the innermost element, the document included. -/
def Json.nesting : Json → Nat
  | .array items => itemsNesting items + 1
  | .object members => membersNesting members + 1
  | _ => 0

def itemsNesting : List Json → Nat
  | [] => 0
  | item :: rest => max item.nesting (itemsNesting rest)

def membersNesting : List (String × Json) → Nat
  | [] => 0
  | (_, item) :: rest => max item.nesting (membersNesting rest)
end

def Key.isStr : Key → Bool
  | .str _ => true
  | _ => false

/-! ### What `json.dumps` accepts -/

theorem intJsonError_eq_none {n : Int} : intJsonError n = none ↔ tooManyDigits n = false := by
  unfold intJsonError
  split <;> simp_all

variable {items : List Val} {entries : List (Key × Val)} {allowNan : Bool} {depth : Nat} {v : Val}

theorem listJsonError_eq_none :
    listJsonError items = none ↔ ∀ v ∈ items, v.jsonError = none := by
  induction items with
  | nil => simp [listJsonError]
  | cons v rest ih => simp [listJsonError, ih]

theorem entriesJsonError_eq_none :
    entriesJsonError entries = none ↔ ∀ e ∈ entries, e.1.jsonError = none ∧ e.2.jsonError = none := by
  induction entries with
  | nil => simp [entriesJsonError]
  | cons e rest ih => simp [entriesJsonError, ih, and_assoc]

theorem listJsonFault_eq_none :
    listJsonFault allowNan depth items = none ↔ ∀ v ∈ items, v.jsonFault allowNan depth = none := by
  induction items with
  | nil => simp [listJsonFault]
  | cons v rest ih => simp [listJsonFault, ih]

theorem entriesJsonFault_eq_none :
    entriesJsonFault allowNan depth entries = none ↔
      ∀ e ∈ entries, e.1.jsonFault allowNan = none ∧ e.2.jsonFault allowNan depth = none := by
  induction entries with
  | nil => simp [entriesJsonFault]
  | cons e rest ih => simp [entriesJsonFault, ih, and_assoc]

theorem listNesting_le_iff :
    listNesting items ≤ depth ↔ ∀ v ∈ items, v.nesting ≤ depth := by
  induction items with
  | nil => simp [listNesting]
  | cons v rest ih => simp [listNesting, ih]

theorem entriesNesting_le_iff :
    entriesNesting entries ≤ depth ↔ ∀ e ∈ entries, e.2.nesting ≤ depth := by
  induction entries with
  | nil => simp [entriesNesting]
  | cons e rest ih => simp [entriesNesting, ih]

theorem exists_of_listJsonFault {fault : JsonFault} (found : listJsonFault allowNan depth items = some fault) :
    ∃ v ∈ items, v.jsonFault allowNan depth = some fault := by
  induction items with
  | nil => simp [listJsonFault] at found
  | cons v rest ih =>
    cases here : v.jsonFault allowNan depth with
    | some first =>
      simp only [listJsonFault, here] at found
      exact ⟨v, List.mem_cons_self, here.trans found⟩
    | none =>
      simp only [listJsonFault, here] at found
      obtain ⟨w, member, fault⟩ := ih found
      exact ⟨w, List.mem_cons_of_mem _ member, fault⟩

theorem exists_of_entriesJsonFault {fault : JsonFault}
    (found : entriesJsonFault allowNan depth entries = some fault) :
    ∃ e ∈ entries, e.1.jsonFault allowNan = some fault ∨ e.2.jsonFault allowNan depth = some fault := by
  induction entries with
  | nil => simp [entriesJsonFault] at found
  | cons e rest ih =>
    cases key : e.1.jsonFault allowNan with
    | some first =>
      simp only [entriesJsonFault, key] at found
      exact ⟨e, List.mem_cons_self, .inl (key.trans found)⟩
    | none =>
      cases here : e.2.jsonFault allowNan depth with
      | some first =>
        simp only [entriesJsonFault, key, here] at found
        exact ⟨e, List.mem_cons_self, .inr (here.trans found)⟩
      | none =>
        simp only [entriesJsonFault, key, here] at found
        obtain ⟨other, member, fault⟩ := ih found
        exact ⟨other, List.mem_cons_of_mem _ member, fault⟩

theorem Key.jsonError_of_jsonFault {k : Key} (safe : k.jsonFault allowNan = .none) :
    k.jsonError = .none := by
  cases k <;> simp_all [Key.jsonFault, Key.jsonError]

theorem Key.jsonFault_of_jsonError {k : Key} (accepted : k.jsonError = .none) : k.jsonFault true = .none := by
  cases k <;> simp_all [Key.jsonFault, Key.jsonError, floatJsonFault]

/-- Induction on values: containers hold smaller ones. -/
@[elab_as_elim] theorem Val.nested {P : Val → Prop} (scalar : ∀ v : Val, v.nesting = 0 → P v)
    (list : ∀ items, (∀ v ∈ items, P v) → P (.list items))
    (tuple : ∀ items, (∀ v ∈ items, P v) → P (.tuple items))
    (dict : ∀ entries, (∀ e ∈ entries, P e.2) → P (.dict entries)) (v : Val) : P v := by
  induction v using Val.document.induct with
  | case7 items ih => exact list items ih
  | case8 items ih => exact tuple items ih
  | case9 entries ih => exact dict entries ih
  | _ => exact scalar _ rfl

theorem Key.jsonFault_ne_recursionError (allowNan : Bool) (k : Key) :
    k.jsonFault allowNan ≠ some .recursionError := by
  cases k with
  | int n => cases h : intJsonError n <;> simp [Key.jsonFault, h]
  | float bits => cases h : allowNan || floatIsFinite bits <;> simp [Key.jsonFault, floatJsonFault, h]
  | none | bool | str | other => simp [Key.jsonFault]

/-- `json.dumps` runs out of stack only on a value that is nested deeper than the stack. -/
theorem Val.nesting_of_recursionError (deep : v.jsonFault allowNan depth = some .recursionError) :
    depth < v.nesting := by
  induction v using Val.nested generalizing depth with
  | scalar v flat =>
    cases v with
    | int n => cases h : intJsonError n <;> simp [Val.jsonFault, h] at deep
    | float bits =>
      cases h : allowNan || floatIsFinite bits <;> simp [Val.jsonFault, floatJsonFault, h] at deep
    | none | bool | str | object => simp [Val.jsonFault] at deep
    | list | tuple | dict => simp [Val.nesting] at flat
  | list items ih | tuple items ih =>
    cases depth with
    | zero => simp [Val.nesting]
    | succ depth =>
      have inside : listJsonFault allowNan depth items = some .recursionError := by
        simpa only [Val.jsonFault] using deep
      obtain ⟨v, member, fault⟩ := exists_of_listJsonFault inside
      have deeper := ih v member fault
      have within := listNesting_le_iff.mp (Nat.le_refl (listNesting items)) v member
      simp only [Val.nesting]
      omega
  | dict entries ih =>
    cases depth with
    | zero => simp [Val.nesting]
    | succ depth =>
      have inside : entriesJsonFault allowNan depth entries = some .recursionError := by
        simpa only [Val.jsonFault] using deep
      obtain ⟨e, member, fault⟩ := exists_of_entriesJsonFault inside
      have deeper := ih e member (fault.resolve_left (e.1.jsonFault_ne_recursionError allowNan))
      have within := entriesNesting_le_iff.mp (Nat.le_refl (entriesNesting entries)) e member
      simp only [Val.nesting]
      omega

/-- `allow_nan=False` and a short stack only refuse more. -/
theorem Val.jsonError_of_jsonFault (safe : v.jsonFault allowNan depth = .none) :
    v.jsonError = .none ∧ v.nesting ≤ depth := by
  induction v using Val.nested generalizing depth with
  | scalar v flat => cases v <;> simp_all [Val.jsonFault, Val.jsonError, Val.nesting]
  | list items ih | tuple items ih =>
    cases depth with
    | zero => cases safe
    | succ depth =>
      have each := fun v member => ih v member (listJsonFault_eq_none.mp safe v member)
      exact ⟨listJsonError_eq_none.mpr fun v member => (each v member).1,
        Nat.succ_le_succ (listNesting_le_iff.mpr fun v member => (each v member).2)⟩
  | dict entries ih =>
    cases depth with
    | zero => cases safe
    | succ depth =>
      have safe := entriesJsonFault_eq_none.mp safe
      have each := fun e member => ih e member (safe e member).2
      refine ⟨entriesJsonError_eq_none.mpr fun e member => ⟨?_, (each e member).1⟩,
        Nat.succ_le_succ (entriesNesting_le_iff.mpr fun e member => (each e member).2)⟩
      exact Key.jsonError_of_jsonFault (safe e member).1

/-- A value that has a document is written if the stack is deep enough. -/
theorem Val.jsonFault_of_jsonError (accepted : v.jsonError = .none) (fits : v.nesting ≤ depth) :
    v.jsonFault true depth = .none := by
  induction v using Val.nested generalizing depth with
  | scalar v flat => cases v <;> simp_all [Val.jsonFault, Val.jsonError, Val.nesting, floatJsonFault]
  | list items ih | tuple items ih =>
    obtain ⟨depth, rfl⟩ := Nat.exists_eq_add_of_le' (Nat.le_of_add_left_le fits)
    have fits := listNesting_le_iff.mp (Nat.le_of_succ_le_succ fits)
    exact listJsonFault_eq_none.mpr fun v member =>
      ih v member (listJsonError_eq_none.mp accepted v member) (fits v member)
  | dict entries ih =>
    obtain ⟨depth, rfl⟩ := Nat.exists_eq_add_of_le' (Nat.le_of_add_left_le fits)
    have fits := entriesNesting_le_iff.mp (Nat.le_of_succ_le_succ fits)
    have accepted := entriesJsonError_eq_none.mp accepted
    exact entriesJsonFault_eq_none.mpr fun e member =>
      ⟨Key.jsonFault_of_jsonError (accepted e member).1, ih e member (accepted e member).2 (fits e member)⟩

/-- Such a value has no other fault than being nested too deep for the stack. -/
theorem Val.jsonFault_of_accepted (accepted : v.jsonError = .none) (depth : Nat) :
    v.jsonFault true depth = .none ∨ v.jsonFault true depth = some .recursionError := by
  induction v using Val.nested generalizing depth with
  | scalar v flat => cases v <;> simp_all [Val.jsonFault, Val.jsonError, Val.nesting, floatJsonFault]
  | list items ih | tuple items ih =>
    cases depth with
    | zero => exact .inr rfl
    | succ depth =>
      replace accepted := listJsonError_eq_none.mp accepted
      rw [Val.jsonFault]
      induction items with
      | nil => exact .inl rfl
      | cons v rest later =>
        rw [List.forall_mem_cons] at ih accepted
        rcases ih.1 accepted.1 depth with first | first
        · simpa [listJsonFault, first] using later ih.2 accepted.2
        · simp [listJsonFault, first]
  | dict entries ih =>
    cases depth with
    | zero => exact .inr rfl
    | succ depth =>
      replace accepted := entriesJsonError_eq_none.mp accepted
      rw [Val.jsonFault]
      induction entries with
      | nil => exact .inl rfl
      | cons e rest later =>
        rw [List.forall_mem_cons] at ih accepted
        have key := Key.jsonFault_of_jsonError accepted.1.1
        rcases ih.1 accepted.1.2 depth with first | first
        · simpa [entriesJsonFault, key, first] using later ih.2 accepted.2
        · simp [entriesJsonFault, key, first]

theorem Val.jsonFault_eq_none_iff :
    v.jsonFault true depth = .none ↔ v.jsonError = .none ∧ v.nesting ≤ depth :=
  ⟨Val.jsonError_of_jsonFault, fun ⟨accepted, fits⟩ => Val.jsonFault_of_jsonError accepted fits⟩

/-! ### The round trip -/

section RoundTrip
variable {floatRepr : BitVec 64 → String}

theorem Key.str_of_isStr {k : Key} (string : k.isStr = true) : ∃ s, k = .str s := by
  cases k with
  | str s => exact ⟨s, rfl⟩
  | none | bool | int | float | other => cases string

/-- A dict whose keys are strings keeps its entries and their order. -/
theorem Val.loads_dict {entries : List (Key × Val)} (strings : ∀ e ∈ entries, e.1.isStr = true)
    (unique : (entries.map (fun e => e.1.canon)).Nodup) :
    ((Val.dict entries).document floatRepr).loads =
      .dict (entries.map (fun e => (e.1, (e.2.document floatRepr).loads))) := by
  have named : ∀ e ∈ entries, Key.str (e.1.memberName floatRepr) = e.1 := by
    intro e member
    obtain ⟨s, string⟩ := e.1.str_of_isStr (strings e member)
    rw [string]
    rfl
  have distinct : ((entries.map (fun e => (e.1.memberName floatRepr, (e.2.document floatRepr).loads))).map
      Prod.fst).Nodup := by
    refine List.Nodup.of_map Key.str ?_
    simp only [List.map_map, Function.comp_def]
    rwa [List.map_congr_left fun e member => (congrArg Key.canon (named e member)).symm] at unique
  rw [Val.document, Json.loads, List.map_map, Function.comp_def, Dict.entries_ofList distinct, List.map_map]
  exact congrArg Val.dict (List.map_congr_left fun e member => by simp [named e member])

theorem itemsReadError_eq_none {items : List Json} :
    itemsReadError items = none ↔ ∀ item ∈ items, item.readError = none := by
  induction items with
  | nil => simp [itemsReadError]
  | cons item rest ih => simp [itemsReadError, ih]

theorem membersReadError_eq_none {members : List (String × Json)} :
    membersReadError members = none ↔ ∀ e ∈ members, e.2.readError = none := by
  induction members with
  | nil => simp [membersReadError]
  | cons e rest ih => simp [membersReadError, ih]

theorem itemsNesting_map {α : Type} {f : α → Json} {g : α → Val} {xs : List α}
    (same : ∀ x ∈ xs, (f x).nesting = (g x).nesting) : itemsNesting (xs.map f) = listNesting (xs.map g) := by
  induction xs with
  | nil => rfl
  | cons x rest ih =>
    rw [List.forall_mem_cons] at same
    simp [itemsNesting, listNesting, same.1, ih same.2]

theorem Val.nesting_document (floatRepr : BitVec 64 → String) (v : Val) :
    (v.document floatRepr).nesting = v.nesting := by
  induction v using Val.nested with
  | scalar v flat => cases v <;> simp_all [Val.document, Json.nesting, Val.nesting]
  | list items ih | tuple items ih =>
    have same : itemsNesting (items.map (fun v => v.document floatRepr)) = listNesting items := by
      rw [itemsNesting_map (g := id) ih, List.map_id]
    rw [Val.document, Json.nesting, Val.nesting, same]
  | dict entries ih =>
    have same : membersNesting (entries.map (fun e => (e.1.memberName floatRepr, e.2.document floatRepr))) =
        entriesNesting entries := by
      induction entries with
      | nil => rfl
      | cons e rest inner =>
        rw [List.forall_mem_cons] at ih
        simp [membersNesting, entriesNesting, ih.1, inner ih.2]
    rw [Val.document, Json.nesting, Val.nesting, same]

/-- What was written can be read. -/
theorem Val.readError_document (floatRepr : BitVec 64 → String) {v : Val} (accepted : v.jsonError = .none) :
    (v.document floatRepr).readError = .none := by
  induction v using Val.nested with
  | scalar v flat =>
    cases v with
    | int n =>
      rw [Val.jsonError, intJsonError_eq_none] at accepted
      simp [Val.document, Json.readError, intReadError, accepted]
    | none | bool | float | str | object => simp [Val.document, Json.readError]
    | list | tuple | dict => simp [Val.nesting] at flat
  | list items ih | tuple items ih =>
    rw [Val.document, Json.readError, itemsReadError_eq_none, List.forall_mem_map]
    exact fun item listed => ih item listed (listJsonError_eq_none.mp accepted item listed)
  | dict entries ih =>
    rw [Val.document, Json.readError, membersReadError_eq_none, List.forall_mem_map]
    exact fun e listed => ih e listed (entriesJsonError_eq_none.mp accepted e listed).2

end RoundTrip
end Py
