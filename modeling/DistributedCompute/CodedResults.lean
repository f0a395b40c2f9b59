import DistributedCompute.Utf16
import DistributedCompute.Wire

/-! The result of a task on the wire, with strings as Python has them: sequences of code
points, surrogates included. `json.dumps` spells a string in UTF-16 code units, which
`json.loads` reads back; for the rest the values and the documents here are those of `Val`
and `Json`. A value without surrogates takes the same way in both. -/
namespace Py
open Utf16 (CodePoint CodeUnit codePoint)

abbrev Text := List CodePoint

def textOf (s : String) : Text := s.toList.map (fun c => codePoint c.toNat)

/-- A code point of no character is shown as NUL. -/
def shownText (s : Text) : String := String.ofList (s.map (fun c => Char.ofNat c.val))

inductive CodedKey
  | none
  | bool (b : Bool)
  | int (n : Int)
  | float (bits : BitVec 64)
  | str (s : Text)
  | other (typeName : String)
  deriving DecidableEq

inductive Coded
  | none
  | bool (b : Bool)
  | int (n : Int)
  | float (bits : BitVec 64)
  | str (s : Text)
  | list (items : List Coded)
  | tuple (items : List Coded)
  | dict (entries : List (CodedKey × Coded))
  | object (typeName : String)

inductive CodedJson
  | null
  | bool (b : Bool)
  | int (n : Int)
  | float (bits : BitVec 64)
  | str (units : List CodeUnit)
  | array (items : List CodedJson)
  | object (members : List (List CodeUnit × CodedJson))

namespace CodedKey

def plain : CodedKey → Key
  | .none => .none
  | .bool b => .bool b
  | .int n => .int n
  | .float bits => .float bits
  | .str s => .str (shownText s)
  | .other ty => .other ty

/-- Equal objects are one key. -/
def canon : CodedKey → CodedKey
  | .bool b => .int (if b then 1 else 0)
  | .float bits =>
    match floatInt? bits with
    | some n => .int n
    | .none => .float bits
  | key => key

/-- The name under which an entry is written. -/
def memberText (floatRepr : BitVec 64 → String) : CodedKey → Text
  | .str s => s
  | key => textOf (key.plain.memberName floatRepr)

/-- A string in which no two surrogates form a pair. -/
def Carries : CodedKey → Prop
  | .str s => Utf16.Whole s
  | _ => False

end CodedKey

namespace Coded

/-- The value, with its strings as they are shown. No check looks at a string. -/
def plain : Coded → Val
  | .none => .none
  | .bool b => .bool b
  | .int n => .int n
  | .float bits => .float bits
  | .str s => .str (shownText s)
  | .list items => .list (items.map (fun v => v.plain))
  | .tuple items => .tuple (items.map (fun v => v.plain))
  | .dict entries => .dict (entries.map (fun e => (e.1.plain, e.2.plain)))
  | .object ty => .object ty
termination_by v => sizeOf v
decreasing_by
  all_goals simp_wf
  all_goals first | have := List.sizeOf_lt_of_mem ‹_ ∈ items› | have := sizeOf_snd_lt ‹_ ∈ entries›
  all_goals omega

/-- The document of a value that `json.dumps` accepts. -/
def document (floatRepr : BitVec 64 → String) : Coded → CodedJson
  | .none | .object _ => .null
  | .bool b => .bool b
  | .int n => .int n
  | .float bits => .float bits
  | .str s => .str (Utf16.encode s)
  | .list items | .tuple items => .array (items.map (fun v => v.document floatRepr))
  | .dict entries =>
    .object (entries.map (fun e => (Utf16.encode (e.1.memberText floatRepr), e.2.document floatRepr)))
termination_by v => sizeOf v
decreasing_by
  all_goals simp_wf
  all_goals first | have := List.sizeOf_lt_of_mem ‹_ ∈ items› | have := sizeOf_snd_lt ‹_ ∈ entries›
  all_goals omega

/-- Tuples read as lists. -/
def untupled : Coded → Coded
  | .list items | .tuple items => .list (items.map (fun v => v.untupled))
  | .dict entries => .dict (entries.map (fun e => (e.1, e.2.untupled)))
  | v => v
termination_by v => sizeOf v
decreasing_by
  all_goals simp_wf
  all_goals first | have := List.sizeOf_lt_of_mem ‹_ ∈ items› | have := sizeOf_snd_lt ‹_ ∈ entries›
  all_goals omega

/-- Every key of every dict is a string, and in no string or key two surrogates form a pair. -/
def Carries : Coded → Prop
  | .str s => Utf16.Whole s
  | .list items | .tuple items => ∀ v ∈ items, v.Carries
  | .dict entries => ∀ e ∈ entries, e.1.Carries ∧ e.2.Carries
  | _ => True
termination_by v => sizeOf v
decreasing_by
  all_goals simp_wf
  all_goals first | have := List.sizeOf_lt_of_mem ‹_ ∈ items› | have := sizeOf_snd_lt ‹_ ∈ entries›
  all_goals omega

/-- No dict in the value has two entries for one key, as it is with every value there is. -/
def Unique : Coded → Prop
  | .list items | .tuple items => ∀ v ∈ items, v.Unique
  | .dict entries => (entries.map (fun e => e.1.canon)).Nodup ∧ ∀ e ∈ entries, e.2.Unique
  | _ => True
termination_by v => sizeOf v
decreasing_by
  all_goals simp_wf
  all_goals first | have := List.sizeOf_lt_of_mem ‹_ ∈ items› | have := sizeOf_snd_lt ‹_ ∈ entries›
  all_goals omega

end Coded

namespace CodedJson

/-- `json.loads`: of two members with one name the last one counts. -/
def loads : CodedJson → Coded
  | .null => .none
  | .bool b => .bool b
  | .int n => .int n
  | .float bits => .float bits
  | .str units => .str (Utf16.decode units)
  | .array items => .list (items.map (fun item => item.loads))
  | .object members => .dict ((Dict.ofList (members.map (fun e => (Utf16.decode e.1, e.2.loads)))).entries.map
      (fun e => (.str e.1, e.2)))
termination_by document => sizeOf document
decreasing_by
  all_goals simp_wf
  all_goals first | have := List.sizeOf_lt_of_mem ‹_ ∈ items› | have := sizeOf_snd_lt ‹_ ∈ members›
  all_goals omega

/-- `json.loads` raises neither ValueError, for an integer, nor RecursionError. -/
def readable : (depth : Nat) → CodedJson → Bool
  | _, .int n => !tooManyDigits n
  | 0, .array _ | 0, .object _ => false
  | depth + 1, .array items => items.all (fun item => item.readable depth)
  | depth + 1, .object members => members.all (fun e => e.2.readable depth)
  | _, _ => true

end CodedJson

/-! ### Texts without surrogates -/

theorem textOf_whole (s : String) : Utf16.Whole (textOf s) := by
  refine Utf16.whole_of_forall fun c member high => ?_
  obtain ⟨character, _, rfl⟩ := List.mem_map.mp member
  have valid := character.valid
  have value : (codePoint character.toNat).val = character.toNat % 0x110000 := rfl
  simp only [UInt32.isValidChar, Nat.isValidChar] at valid
  rw [value] at high
  obtain ⟨_, _⟩ := high
  have same : character.val.toNat = character.toNat := rfl
  omega

theorem decode_textOf (s : String) : Utf16.decode (Utf16.encode (textOf s)) = textOf s :=
  (Utf16.decode_encode_iff _).mpr (textOf_whole s)

theorem shownText_textOf (s : String) : shownText (textOf s) = s := by
  have back (c : Char) : Char.ofNat (codePoint c.toNat).val = c := by
    have bound : c.toNat < 0x110000 := by
      have valid := c.valid
      have same : c.val.toNat = c.toNat := rfl
      simp only [UInt32.isValidChar, Nat.isValidChar] at valid
      omega
    have value : (codePoint c.toNat).val = c.toNat := Nat.mod_eq_of_lt bound
    rw [value, Char.ofNat_toNat]
  rw [shownText, textOf, List.map_map]
  simp only [Function.comp_def, back, List.map_id', String.ofList_toList]

theorem textOf_injective : textOf.Injective := fun s t same => by
  rw [← shownText_textOf s, same, shownText_textOf]

/-! ### The round trip -/

/-- Induction on values: containers hold smaller ones. -/
@[elab_as_elim] theorem Coded.nested {P : Coded → Prop} (scalar : ∀ v : Coded, v.plain.nesting = 0 → P v)
    (list : ∀ items, (∀ v ∈ items, P v) → P (.list items))
    (tuple : ∀ items, (∀ v ∈ items, P v) → P (.tuple items))
    (dict : ∀ entries, (∀ e ∈ entries, P e.2) → P (.dict entries)) (v : Coded) : P v := by
  induction v using Coded.document.induct with
  | case7 items ih => exact list items ih
  | case8 items ih => exact tuple items ih
  | case9 entries ih => exact dict entries ih
  | _ => exact scalar _ (by simp [Coded.plain, Val.nesting])

section RoundTrip
variable {floatRepr : BitVec 64 → String}

theorem CodedKey.str_of_carries {k : CodedKey} (carries : k.Carries) : ∃ s, k = .str s ∧ Utf16.Whole s := by
  cases k with
  | str s => exact ⟨s, rfl, carries⟩
  | none | bool | int | float | other => exact carries.elim

/-- A dict whose keys survive keeps its entries and their order. -/
theorem Coded.loads_dict {entries : List (CodedKey × Coded)} (carries : ∀ e ∈ entries, e.1.Carries)
    (unique : (entries.map (fun e => e.1.canon)).Nodup) :
    ((Coded.dict entries).document floatRepr).loads =
      .dict (entries.map (fun e => (e.1, (e.2.document floatRepr).loads))) := by
  have named : ∀ e ∈ entries, CodedKey.str (Utf16.decode (Utf16.encode (e.1.memberText floatRepr))) = e.1 := by
    intro e member
    obtain ⟨s, string, whole⟩ := e.1.str_of_carries (carries e member)
    rw [string, CodedKey.memberText, (Utf16.decode_encode_iff s).mpr whole]
  have distinct : ((entries.map (fun e => (Utf16.decode (Utf16.encode (e.1.memberText floatRepr)),
      (e.2.document floatRepr).loads))).map Prod.fst).Nodup := by
    refine List.Nodup.of_map CodedKey.str ?_
    simp only [List.map_map, Function.comp_def]
    rwa [List.map_congr_left fun e member => (congrArg CodedKey.canon (named e member)).symm] at unique
  rw [Coded.document, CodedJson.loads, List.map_map, Function.comp_def, Dict.entries_ofList distinct, List.map_map]
  exact congrArg Coded.dict (List.map_congr_left fun e member => by simp [named e member])

/-- A value comes back, with its tuples as lists, exactly if it `Carries`. -/
theorem Coded.loads_document_iff {v : Coded} (accepted : v.plain.jsonError = .none) (unique : v.Unique) :
    (v.document floatRepr).loads = v.untupled ↔ v.Carries := by
  induction v using Coded.nested with
  | scalar v flat =>
    cases v with
    | str s => simp [Coded.document, CodedJson.loads, Coded.untupled, Coded.Carries, Utf16.decode_encode_iff]
    | none | bool | int | float => simp [Coded.document, CodedJson.loads, Coded.untupled, Coded.Carries]
    | object => simp [Coded.plain, Val.jsonError] at accepted
    | list | tuple | dict => simp [Coded.plain, Val.nesting] at flat
  | list items ih | tuple items ih =>
    rw [Coded.Unique] at unique
    rw [Coded.plain, Val.jsonError, listJsonError_eq_none, List.forall_mem_map] at accepted
    rw [Coded.document, CodedJson.loads, Coded.untupled, Coded.Carries, Coded.list.injEq, List.map_map,
      List.map_inj_left]
    exact forall₂_congr fun v member => ih v member (accepted v member) (unique v member)
  | dict entries ih =>
    rw [Coded.Unique] at unique
    rw [Coded.plain, Val.jsonError, entriesJsonError_eq_none, List.forall_mem_map] at accepted
    obtain ⟨keys, values⟩ := unique
    have back : ∀ e ∈ entries, ((e.2.document floatRepr).loads = e.2.untupled ↔ e.2.Carries) :=
      fun e member => ih e member (accepted e member).2 (values e member)
    rw [Coded.untupled, Coded.Carries]
    constructor
    · intro same
      -- every key has been read from the document
      have strings : ∀ e ∈ entries, e.1.Carries := by
        intro e member
        have listed : (e.1, e.2.untupled) ∈ entries.map (fun e => (e.1, e.2.untupled)) :=
          List.mem_map.mpr ⟨e, member, rfl⟩
        rw [Coded.document, CodedJson.loads, Coded.dict.injEq] at same
        rw [← same] at listed
        obtain ⟨read, there, named⟩ := List.mem_map.mp listed
        obtain ⟨⟨units, _⟩, _, rfl⟩ := List.mem_map.mp (Dict.mem_of_ofList there)
        rw [← (Prod.mk.inj named).1]
        exact Utf16.whole_decode units
      rw [Coded.loads_dict strings keys, Coded.dict.injEq, List.map_inj_left] at same
      exact fun e member => ⟨strings e member, (back e member).mp (Prod.mk.inj (same e member)).2⟩
    · intro carries
      rw [Coded.loads_dict (fun e member => (carries e member).1) keys, Coded.dict.injEq, List.map_inj_left]
      exact fun e member => by rw [(back e member).mpr (carries e member).2]

/-- What was written is read if the stack of the reader is deep enough. -/
theorem Coded.readable_document {v : Coded} {depth : Nat} (accepted : v.plain.jsonError = .none) :
    (v.document floatRepr).readable depth = true ↔ v.plain.nesting ≤ depth := by
  induction v using Coded.nested generalizing depth with
  | scalar v flat =>
    cases v with
    | int n =>
      rw [Coded.plain, Val.jsonError, intJsonError_eq_none] at accepted
      simp [Coded.document, CodedJson.readable, accepted, flat]
    | none | bool | float | str | object => simp [Coded.document, CodedJson.readable, flat]
    | list | tuple | dict => simp [Coded.plain, Val.nesting] at flat
  | list items ih | tuple items ih =>
    rw [Coded.plain, Val.jsonError, listJsonError_eq_none, List.forall_mem_map] at accepted
    cases depth with
    | zero => simp [Coded.document, CodedJson.readable, Coded.plain, Val.nesting]
    | succ depth =>
      rw [Coded.document, Coded.plain, Val.nesting, Nat.succ_le_succ_iff, listNesting_le_iff, List.forall_mem_map]
      simp only [CodedJson.readable, List.all_map, List.all_eq_true, Function.comp_def]
      exact forall₂_congr fun v member => ih v member (accepted v member)
  | dict entries ih =>
    rw [Coded.plain, Val.jsonError, entriesJsonError_eq_none, List.forall_mem_map] at accepted
    cases depth with
    | zero => simp [Coded.document, CodedJson.readable, Coded.plain, Val.nesting]
    | succ depth =>
      rw [Coded.document, Coded.plain, Val.nesting, Nat.succ_le_succ_iff, entriesNesting_le_iff,
        List.forall_mem_map]
      simp only [CodedJson.readable, List.all_map, List.all_eq_true, Function.comp_def]
      exact forall₂_congr fun e member => ih e member (accepted e member).2

end RoundTrip

/-! ### Values without surrogates -/

def Key.coded : Key → CodedKey
  | .none => .none
  | .bool b => .bool b
  | .int n => .int n
  | .float bits => .float bits
  | .str s => .str (textOf s)
  | .other ty => .other ty

def Val.coded : Val → Coded
  | .none => .none
  | .bool b => .bool b
  | .int n => .int n
  | .float bits => .float bits
  | .str s => .str (textOf s)
  | .list items => .list (items.map (fun v => v.coded))
  | .tuple items => .tuple (items.map (fun v => v.coded))
  | .dict entries => .dict (entries.map (fun e => (e.1.coded, e.2.coded)))
  | .object ty => .object ty
termination_by v => sizeOf v
decreasing_by
  all_goals simp_wf
  all_goals first | have := List.sizeOf_lt_of_mem ‹_ ∈ items› | have := sizeOf_snd_lt ‹_ ∈ entries›
  all_goals omega

theorem Key.plain_coded (k : Key) : k.coded.plain = k := by
  cases k with
  | str s => exact congrArg Key.str (shownText_textOf s)
  | none | bool | int | float | other => rfl

theorem Val.plain_coded (v : Val) : v.coded.plain = v := by
  induction v using Val.nested with
  | scalar v flat =>
    cases v with
    | str s => simp [Val.coded, Coded.plain, shownText_textOf]
    | none | bool | int | float | object => simp [Val.coded, Coded.plain]
    | list | tuple | dict => simp [Val.nesting] at flat
  | list items ih | tuple items ih =>
    simp only [Val.coded, Coded.plain, List.map_map, Function.comp_def]
    rw [List.map_congr_left ih, List.map_id']
  | dict entries ih =>
    simp only [Val.coded, Coded.plain, List.map_map, Function.comp_def]
    rw [List.map_congr_left fun e member => Prod.ext e.1.plain_coded (ih e member), List.map_id']

theorem Key.memberText_coded (floatRepr : BitVec 64 → String) (k : Key) :
    k.coded.memberText floatRepr = textOf (k.memberName floatRepr) := by
  cases k <;> rfl

/-- The way of such a value over the wire is that of `Val`. -/
theorem Val.loads_coded (floatRepr : BitVec 64 → String) (v : Val) :
    (v.coded.document floatRepr).loads = (v.document floatRepr).loads.coded := by
  induction v using Val.nested with
  | scalar v flat =>
    cases v with
    | str s => simp [Val.coded, Coded.document, CodedJson.loads, Val.document, Json.loads, decode_textOf]
    | none | bool | int | float | object =>
      simp [Val.coded, Coded.document, CodedJson.loads, Val.document, Json.loads]
    | list | tuple | dict => simp [Val.nesting] at flat
  | list items ih | tuple items ih =>
    simp only [Val.coded, Coded.document, CodedJson.loads, Val.document, Json.loads, List.map_map,
      Function.comp_def]
    rw [List.map_congr_left ih]
  | dict entries ih =>
    simp only [Val.coded, Coded.document, CodedJson.loads, Val.document, Json.loads, List.map_map,
      Function.comp_def, Key.memberText_coded, decode_textOf]
    rw [List.map_congr_left fun e member => congrArg (Prod.mk (textOf (e.1.memberName floatRepr))) (ih e member)]
    have renamed := Dict.entries_ofList_map textOf_injective Val.coded
      (entries.map (fun e => (e.1.memberName floatRepr, (e.2.document floatRepr).loads)))
    rw [List.map_map] at renamed
    simp only [Function.comp_def] at renamed
    rw [renamed, List.map_map]
    rfl

end Py

namespace DistributedCompute
open Py
open Utf16 (codePoint)

/-! ### The result of a task -/

def fieldKey (name : String) : CodedKey := .str (textOf name)

/-- A dict that the program itself makes. -/
def codedRecord (fields : List (String × Coded)) : List (CodedKey × Coded) :=
  fields.map (fun e => (fieldKey e.1, e.2))

/-- The TASK_RESULT with a result: `TaskMessage.reply`. -/
def codedReply (m : TaskMessage) (result : Coded) : Coded :=
  .dict (codedRecord [("type", .str (textOf "TASK_RESULT")), ("request_id", .str (textOf m.requestId)),
    ("payload", .dict (codedRecord [("task_id", .str (textOf m.taskId)), ("attempt", .int m.attempt),
      ("status", .str (textOf "success")), ("result", result)]))])

/-- `encode_message` of that message, on a stack of some depth; none if it raises. -/
def encodeResult (floatRepr : BitVec 64 → String) (depth : Nat) (m : TaskMessage) (result : Coded) :
    Option CodedJson :=
  match (codedReply m result).plain.jsonFault true depth with
  | none => some ((codedReply m result).document floatRepr)
  | some _ => none

def codedEntry (name : String) (entries : List (CodedKey × Coded)) : Option Coded :=
  (entries.find? (fun e => e.1 = fieldKey name)).map Prod.snd

/-- `decode_message` and then `payload["result"]`; none if it raises. -/
def decodeResult (depth : Nat) (document : CodedJson) : Option Coded :=
  match document.readable depth, document.loads with
  | true, .dict entries =>
    match codedEntry "type" entries, codedEntry "request_id" entries, codedEntry "payload" entries with
    | some (.str (_ :: _)), some (.str (_ :: _)), some (.dict fields) => codedEntry "result" fields
    | _, _, _ => none
  | _, _ => none

section Reply
variable {floatRepr : BitVec 64 → String} {m : TaskMessage} {result : Coded}

theorem codedReply_coded (m : TaskMessage) (value : Val) :
    codedReply m value.coded = (m.reply [("status", .str "success"), ("result", value)]).toVal.coded := by
  simp [codedReply, codedRecord, fieldKey, Message.toVal, TaskMessage.reply, buildMessage, Val.coded, Key.coded,
    MsgType.name]

theorem fieldKey_injective : fieldKey.Injective := fun _ _ same => textOf_injective (CodedKey.str.inj same)

theorem loads_record {fields : List (String × Coded)} (distinct : (fields.map Prod.fst).Nodup) :
    ((Coded.dict (codedRecord fields)).document floatRepr).loads =
      .dict (codedRecord (fields.map (fun e => (e.1, (e.2.document floatRepr).loads)))) := by
  have carries : ∀ e ∈ codedRecord fields, e.1.Carries := by
    simp only [codedRecord, List.forall_mem_map]
    exact fun e _ => textOf_whole e.1
  have unique : ((codedRecord fields).map (fun e => e.1.canon)).Nodup := by
    have names : (codedRecord fields).map (fun e => e.1.canon) = (fields.map Prod.fst).map fieldKey := by
      simp [codedRecord, fieldKey, CodedKey.canon, Function.comp_def]
    rw [names]
    exact distinct.map fieldKey_injective
  rw [Coded.loads_dict carries unique, codedRecord, codedRecord, List.map_map, List.map_map]
  rfl

theorem entry_record (name : String) (fields : List (String × Coded)) :
    codedEntry name (codedRecord fields) = (fields.find? (fun e => e.1 = name)).map Prod.snd := by
  simp [codedEntry, codedRecord, List.find?_map, Function.comp_def, fieldKey_injective.eq_iff]

theorem loads_codedReply (m : TaskMessage) (result : Coded) :
    ((codedReply m result).document floatRepr).loads = codedReply m (result.document floatRepr).loads := by
  have text (s : String) : ((Coded.str (textOf s)).document floatRepr).loads = .str (textOf s) := by
    rw [Coded.document, CodedJson.loads, decode_textOf]
  have number (n : Int) : ((Coded.int n).document floatRepr).loads = .int n := by
    rw [Coded.document, CodedJson.loads]
  rw [codedReply, loads_record (by simp)]
  simp only [List.map_cons, List.map_nil, text]
  rw [loads_record (by simp)]
  simp only [List.map_cons, List.map_nil, text, number]
  rfl

theorem jsonError_codedReply (digits : tooManyDigits m.attempt = false) (accepted : result.plain.jsonError = none) :
    (codedReply m result).plain.jsonError = none := by
  have number := intJsonError_eq_none.mpr digits
  simp [codedReply, codedRecord, fieldKey, Coded.plain, CodedKey.plain, Val.jsonError, entriesJsonError,
    Key.jsonError, number, accepted]

theorem nesting_codedReply : (codedReply m result).plain.nesting = result.plain.nesting + 2 := by
  simp [codedReply, codedRecord, Coded.plain, Val.nesting, entriesNesting]

theorem textOf_cons {s : String} (nonEmpty : s ≠ "") : ∃ c rest, textOf s = c :: rest := by
  refine List.exists_cons_of_ne_nil fun empty => nonEmpty (textOf_injective ?_)
  rw [empty]
  rfl

section Carried
variable (identified : m.requestId ≠ "") (digits : tooManyDigits m.attempt = false)
  (accepted : result.plain.jsonError = none)
include identified digits accepted

theorem decodeResult_reply (floatRepr : BitVec 64 → String) (depth : Nat) :
    decodeResult depth ((codedReply m result).document floatRepr) =
      if result.plain.nesting + 2 ≤ depth then some (result.document floatRepr).loads else none := by
  have readable : ((codedReply m result).document floatRepr).readable depth =
      decide (result.plain.nesting + 2 ≤ depth) := by
    rw [Bool.eq_iff_iff, Coded.readable_document (jsonError_codedReply digits accepted), nesting_codedReply,
      decide_eq_true_iff]
  obtain ⟨_, _, requestId⟩ := textOf_cons identified
  obtain ⟨_, _, type⟩ := textOf_cons (show "TASK_RESULT" ≠ "" by decide)
  rw [decodeResult, readable, loads_codedReply]
  by_cases fits : result.plain.nesting + 2 ≤ depth
  · rw [if_pos fits, decide_eq_true fits]
    simp [codedReply, entry_record, type, requestId]
  · rw [if_neg fits, decide_eq_false fits]

/-- What the receiver gets is the result after `json.dumps` and `json.loads`, if the stacks
on both sides have room for two more containers. -/
theorem carried_iff {floatRepr : BitVec 64 → String} {send receive : Nat} {received : Coded} :
    (encodeResult floatRepr send m result).bind (decodeResult receive) = some received ↔
      (result.document floatRepr).loads = received ∧ result.plain.nesting + 2 ≤ send ∧
        result.plain.nesting + 2 ≤ receive := by
  have sent : (codedReply m result).plain.jsonFault true send = none ↔ result.plain.nesting + 2 ≤ send := by
    rw [Val.jsonFault_eq_none_iff, nesting_codedReply]
    exact and_iff_right (jsonError_codedReply digits accepted)
  unfold encodeResult
  cases fault : (codedReply m result).plain.jsonFault true send with
  | none =>
    simp only [Option.bind_some, decodeResult_reply identified digits accepted, sent.mp fault, true_and]
    split <;> simp [*]
  | some fault' =>
    have short : ¬ result.plain.nesting + 2 ≤ send := fun fits => by simp [sent.mpr fits] at fault
    simp [short]

end Carried

/-- For a result without surrogates this is what `decode_message` reads in `Wire`. -/
theorem decodeResult_coded {value : Val} (identified : m.requestId ≠ "") (digits : tooManyDigits m.attempt = false)
    (accepted : value.jsonError = none) (floatRepr : BitVec 64 → String) {depth : Nat}
    (room : value.nesting + 2 ≤ depth) :
    ∃ decoded, decodeMessage ((m.reply [("status", .str "success"), ("result", value)]).document floatRepr) =
        .ok decoded ∧
      decodeResult depth ((m.reply [("status", .str "success"), ("result", value)]).toVal.coded.document floatRepr) =
        (decoded.get? "result").map Val.coded := by
  have formed : (m.reply [("status", .str "success"), ("result", value)]).Formed :=
    ⟨rfl, (by decide : "TASK_RESULT" ≠ ""), identified, by simp [TaskMessage.reply, buildMessage]⟩
  have safe : (m.reply [("status", .str "success"), ("result", value)]).toVal.jsonError = none := by
    have number := intJsonError_eq_none.mpr digits
    rw [jsonError_toVal_iff]
    simp [TaskMessage.reply, buildMessage, Val.jsonError, number, accepted]
  refine ⟨_, decode_document floatRepr formed safe, ?_⟩
  have again : value.coded.plain.jsonError = none := by rwa [Val.plain_coded]
  rw [← codedReply_coded, decodeResult_reply identified digits again, if_pos (by rwa [Val.plain_coded]),
    Val.loads_coded]
  rfl

end Reply

theorem jsonFault_of_check {rt : Runtime} {result : Val} {operation : String}
    (safe : rt.checkResultIsJsonSafe result operation = .ok ()) : result.jsonFault false rt.jsonDepth = none := by
  unfold Runtime.checkResultIsJsonSafe at safe
  split at safe
  · assumption
  all_goals cases safe

/-- A result that passes the check of the executor arrives as it was, with tuples as lists,
exactly if the keys of its dicts are strings, no high surrogate stands in front of a low one
in a key or a string, and the stack of the sender and that of the receiver have room for it
inside the message. -/
theorem result_survives_iff {rt : Runtime} {result : Coded} {operation : String} (unique : result.Unique)
    (safe : rt.checkResultIsJsonSafe result.plain operation = .ok ()) {m : TaskMessage}
    (identified : m.requestId ≠ "") (digits : tooManyDigits m.attempt = false) (floatRepr : BitVec 64 → String)
    (send receive : Nat) :
    (encodeResult floatRepr send m result).bind (decodeResult receive) = some result.untupled ↔
      result.Carries ∧ result.plain.nesting + 2 ≤ send ∧ result.plain.nesting + 2 ≤ receive := by
  have accepted := (Val.jsonError_of_jsonFault (jsonFault_of_check safe)).1
  rw [carried_iff identified digits accepted, Coded.loads_document_iff accepted unique]

/-- A dict with a tuple in it arrives, with the tuple as a list. -/
theorem tupleResult_survives :
    (encodeResult (fun _ => "") 4 ⟨"r", "t", "f", [], 1⟩
      (.dict [(fieldKey "a", .tuple [.int 1, .none])])).bind (decodeResult 4) =
        some (.dict [(fieldKey "a", .list [.int 1, .none])]) := by
  have unique : (Coded.dict [(fieldKey "a", .tuple [.int 1, .none])]).Unique := by simp [Coded.Unique]
  have carries : (Coded.dict [(fieldKey "a", .tuple [.int 1, .none])]).Carries := by
    simp [Coded.Carries, fieldKey, CodedKey.Carries, textOf_whole]
  have plain : (Coded.dict [(fieldKey "a", .tuple [.int 1, .none])]).plain =
      .dict [(.str "a", .tuple [.int 1, .none])] := by
    simp [Coded.plain, CodedKey.plain, fieldKey, shownText_textOf]
  have survives := (@result_survives_iff bareRuntime (.dict [(fieldKey "a", .tuple [.int 1, .none])]) "f" unique
    (by rw [plain]; rfl) ⟨"r", "t", "f", [], 1⟩ (by decide) (by decide) (fun _ => "") 4 4).mpr
    ⟨carries, by rw [plain]; decide, by rw [plain]; decide⟩
  simpa [Coded.untupled] using survives

/-- The keys 1 and "1". -/
def mixedKeys : Coded := .dict [(.int 1, .str (textOf "a")), (fieldKey "1", .str (textOf "b"))]

/-- The two surrogates of a character, and that character. -/
def pairedKeys : Coded :=
  .dict [(.str [codePoint 0xD83D, codePoint 0xDE00], .int 1), (.str [codePoint 0x1F600], .int 2)]

theorem mixedKeys_plain : mixedKeys.plain = .dict [(.int 1, .str "a"), (.str "1", .str "b")] := by
  simp [mixedKeys, Coded.plain, CodedKey.plain, fieldKey, shownText_textOf]

theorem pairedKeys_plain : pairedKeys.plain = .dict [(.str (shownText [codePoint 0xD83D, codePoint 0xDE00]), .int 1),
    (.str (shownText [codePoint 0x1F600]), .int 2)] := by
  simp [pairedKeys, Coded.plain, CodedKey.plain]

/-- Of two members with one name the last one counts. -/
theorem entries_twice (name : Text) (a b : Coded) : (Dict.ofList [(name, a), (name, b)]).entries = [(name, b)] := by
  have empty : (∅ : Dict Text Coded).entries = [] := rfl
  simp [Dict.ofList, Dict.insert, Dict.keys, empty]

theorem mixedKeys_loads : (mixedKeys.document fun _ => "").loads = .dict [(fieldKey "1", .str (textOf "b"))] := by
  have number : CodedKey.memberText (fun _ => "") (.int 1) = textOf "1" := by decide +kernel
  have string : CodedKey.memberText (fun _ => "") (.str (textOf "1")) = textOf "1" := rfl
  simp only [mixedKeys, fieldKey, Coded.document, CodedJson.loads, List.map_cons, List.map_nil, number, string,
    decode_textOf]
  rw [entries_twice]
  rfl

/-- The two surrogates and the character are spelled alike. -/
theorem pairedKeys_loads : (pairedKeys.document fun _ => "").loads = .dict [(.str [codePoint 0x1F600], .int 2)] := by
  have joined : Utf16.decode (Utf16.encode [codePoint 0xD83D, codePoint 0xDE00]) = [codePoint 0x1F600] := by
    decide +kernel
  have whole : Utf16.decode (Utf16.encode [codePoint 0x1F600]) = [codePoint 0x1F600] := by decide +kernel
  simp only [pairedKeys, Coded.document, CodedJson.loads, List.map_cons, List.map_nil, CodedKey.memberText, joined,
    whole]
  rw [entries_twice]
  rfl

/-- Accepted results of which an entry is lost, and one that is too deep for its message. -/
theorem mixedKeys_merged :
    (bareRuntime.checkResultIsJsonSafe mixedKeys.plain "f" = .ok () ∧
      (encodeResult (fun _ => "") 3 ⟨"r", "t", "f", [], 1⟩ mixedKeys).bind (decodeResult 3) =
        some (.dict [(fieldKey "1", .str (textOf "b"))])) ∧
    (bareRuntime.checkResultIsJsonSafe pairedKeys.plain "f" = .ok () ∧
      (encodeResult (fun _ => "") 3 ⟨"r", "t", "f", [], 1⟩ pairedKeys).bind (decodeResult 3) =
        some (.dict [(.str [codePoint 0x1F600], .int 2)])) ∧
    (Runtime.checkResultIsJsonSafe { bareRuntime with jsonDepth := 2 } (Coded.list [.list []]).plain "f" = .ok () ∧
      ∀ depth, (encodeResult (fun _ => "") 3 ⟨"r", "t", "f", [], 1⟩ (.list [.list []])).bind (decodeResult depth) =
        none) := by
  have nested : (Coded.list [.list []]).plain = .list [.list []] := by simp [Coded.plain]
  refine ⟨⟨?_, ?_⟩, ⟨?_, ?_⟩, ?_, fun depth => ?_⟩
  · rw [mixedKeys_plain]
    decide +kernel
  · exact (carried_iff (by decide) (by decide) (by rw [mixedKeys_plain]; decide +kernel)).mpr
      ⟨mixedKeys_loads, by rw [mixedKeys_plain]; decide, by rw [mixedKeys_plain]; decide⟩
  · rw [pairedKeys_plain]
    decide +kernel
  · exact (carried_iff (by decide) (by decide) (by rw [pairedKeys_plain]; decide +kernel)).mpr
      ⟨pairedKeys_loads, by rw [pairedKeys_plain]; decide, by rw [pairedKeys_plain]; decide⟩
  · rw [nested]
    decide +kernel
  · rw [Option.eq_none_iff_forall_ne_some]
    intro received carried
    have short := ((carried_iff (by decide) (by decide) (by rw [nested]; decide +kernel)).mp carried).2.1
    rw [nested] at short
    exact absurd short (by decide)

end DistributedCompute
