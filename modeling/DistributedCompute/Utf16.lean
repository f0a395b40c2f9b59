import Mathlib.Data.List.Chain

/-! Strings of code points in UTF-16 code units, as the `\u` escapes of JSON spell them. A
string may hold surrogates, which are code points of no character. A high surrogate in
front of a low one is spelled like the character that the two stand for, so it is read back
as that character. -/
namespace Utf16

abbrev CodePoint := Fin 0x110000
abbrev CodeUnit := Fin 0x10000

def codePoint (n : Nat) : CodePoint := Fin.ofNat _ n

def IsHigh (c : Nat) : Prop := 0xD800 ≤ c ∧ c < 0xDC00

def IsLow (c : Nat) : Prop := 0xDC00 ≤ c ∧ c < 0xE000

instance (c : Nat) : Decidable (IsHigh c) := inferInstanceAs (Decidable (_ ∧ _))
instance (c : Nat) : Decidable (IsLow c) := inferInstanceAs (Decidable (_ ∧ _))

def highHalf (c : CodePoint) : CodeUnit := Fin.ofNat _ (0xD800 + (c.val - 0x10000) / 0x400)

def lowHalf (c : CodePoint) : CodeUnit := Fin.ofNat _ (0xDC00 + (c.val - 0x10000) % 0x400)

def join (high low : CodeUnit) : CodePoint :=
  codePoint (0x10000 + (high.val - 0xD800) * 0x400 + (low.val - 0xDC00))

def single (u : CodeUnit) : CodePoint := codePoint u.val

def spell (c : CodePoint) : List CodeUnit :=
  if c.val < 0x10000 then [Fin.ofNat _ c.val] else [highHalf c, lowHalf c]

def encode (s : List CodePoint) : List CodeUnit := s.flatMap spell

/-- A high surrogate takes a low one that follows it. -/
def decode : List CodeUnit → List CodePoint
  | [] => []
  | [u] => [single u]
  | u :: v :: rest =>
    if IsHigh u ∧ IsLow v then join u v :: decode rest else single u :: decode (v :: rest)

/-- No high surrogate stands in front of a low one. -/
def Whole (s : List CodePoint) : Prop := s.IsChain (fun a b => ¬ (IsHigh a ∧ IsLow b))

instance (s : List CodePoint) : Decidable (Whole s) :=
  inferInstanceAs (Decidable (s.IsChain (fun a b => ¬ (IsHigh a ∧ IsLow b))))

/-! ### One code point -/

theorem single_val (u : CodeUnit) : (single u).val = u.val := by
  have bound := u.isLt
  exact Nat.mod_eq_of_lt (by omega)

variable {u : CodeUnit} {c : CodePoint} {s : List CodePoint}

theorem join_val {v : CodeUnit} (high : IsHigh u) (low : IsLow v) :
    (join u v).val = 0x10000 + (u.val - 0xD800) * 0x400 + (v.val - 0xDC00) := by
  obtain ⟨_, _⟩ := high
  obtain ⟨_, _⟩ := low
  exact Nat.mod_eq_of_lt (by omega)

theorem highHalf_val (c : CodePoint) : (highHalf c).val = 0xD800 + (c.val - 0x10000) / 0x400 := by
  have bound := c.isLt
  exact Nat.mod_eq_of_lt (by omega)

theorem lowHalf_val (c : CodePoint) : (lowHalf c).val = 0xDC00 + (c.val - 0x10000) % 0x400 :=
  Nat.mod_eq_of_lt (by omega)

theorem isHigh_highHalf (c : CodePoint) : IsHigh (highHalf c) := by
  have bound := c.isLt
  rw [IsHigh, highHalf_val]
  omega

theorem isLow_lowHalf (c : CodePoint) : IsLow (lowHalf c) := by
  rw [IsLow, lowHalf_val]
  omega

theorem join_halves (large : 0x10000 ≤ c.val) : join (highHalf c) (lowHalf c) = c := by
  refine Fin.ext ?_
  rw [join_val (isHigh_highHalf c) (isLow_lowHalf c), highHalf_val, lowHalf_val]
  omega

/-! ### Reading back -/

theorem decode_lone {rest : List CodeUnit} (apart : ∀ v ∈ rest.head?, ¬ (IsHigh u ∧ IsLow v)) :
    decode (u :: rest) = single u :: decode rest := by
  cases rest with
  | nil => rfl
  | cons v rest => rw [decode, if_neg (apart v rfl)]

theorem decode_large (large : 0x10000 ≤ c.val) (s : List CodePoint) :
    decode (encode (c :: s)) = c :: decode (encode s) := by
  have spelled : encode (c :: s) = highHalf c :: lowHalf c :: encode s := by
    rw [encode, List.flatMap_cons, spell, if_neg (Nat.not_lt.mpr large)]
    rfl
  rw [spelled, decode, if_pos ⟨isHigh_highHalf c, isLow_lowHalf c⟩, join_halves large]

theorem encode_small (small : c.val < 0x10000) (s : List CodePoint) :
    ∃ u : CodeUnit, u.val = c.val ∧ encode (c :: s) = u :: encode s := by
  refine ⟨Fin.ofNat _ c.val, Nat.mod_eq_of_lt small, ?_⟩
  rw [encode, List.flatMap_cons, spell, if_pos small]
  rfl

/-- A string is spelled with a low surrogate first only if it begins with one. -/
theorem isLow_head (first : u ∈ (encode s).head?) (low : IsLow u) :
    ∃ b ∈ s.head?, IsLow b := by
  cases s with
  | nil => cases first
  | cons b rest =>
    refine ⟨b, rfl, ?_⟩
    by_cases small : b.val < 0x10000
    · obtain ⟨v, same, spelled⟩ := encode_small small rest
      rw [spelled] at first
      cases first
      rw [IsLow, ← same]
      exact low
    · rw [encode, List.flatMap_cons, spell, if_neg small] at first
      cases first
      have above := (isHigh_highHalf b).2
      have below := low.1
      omega

/-- A code point that does not begin a pair is read back. -/
theorem decode_cons (apart : ∀ b ∈ s.head?, ¬ (IsHigh c ∧ IsLow b)) :
    decode (encode (c :: s)) = c :: decode (encode s) := by
  by_cases small : c.val < 0x10000
  · obtain ⟨u, same, spelled⟩ := encode_small small s
    have back : single u = c := Fin.ext ((single_val u).trans same)
    rw [spelled, decode_lone, back]
    rintro v first ⟨high, low⟩
    obtain ⟨b, head, lowest⟩ := isLow_head first low
    exact apart b head ⟨same ▸ high, lowest⟩
  · exact decode_large (Nat.le_of_not_lt small) s

/-- A pair is read as one character. -/
theorem decode_pair {b : CodePoint} (high : IsHigh c) (low : IsLow b) (s : List CodePoint) :
    ∃ joined : CodePoint, 0x10000 ≤ joined.val ∧ decode (encode (c :: b :: s)) = joined :: decode (encode s) := by
  have bounds : c.val < 0x10000 ∧ b.val < 0x10000 := by
    obtain ⟨_, _⟩ := high
    obtain ⟨_, _⟩ := low
    omega
  obtain ⟨u, same, spelled⟩ := encode_small bounds.1 (b :: s)
  obtain ⟨v, same', spelled'⟩ := encode_small bounds.2 s
  have pair : IsHigh u ∧ IsLow v := by
    rw [same, same']
    exact ⟨high, low⟩
  refine ⟨join u v, ?_, ?_⟩
  · rw [join_val pair.1 pair.2]
    omega
  · rw [spelled, spelled', decode, if_pos pair]

theorem whole_cons :
    Whole (c :: s) ↔ (∀ b ∈ s.head?, ¬ (IsHigh c ∧ IsLow b)) ∧ Whole s := by
  cases s with
  | nil => simp [Whole]
  | cons b rest => simp [Whole]

theorem whole_of_forall (characters : ∀ c ∈ s, ¬ IsHigh c) : Whole s := by
  induction s with
  | nil => exact .nil
  | cons c s ih =>
    rw [List.forall_mem_cons] at characters
    exact whole_cons.mpr ⟨fun _ _ pair => characters.1 pair.1, ih characters.2⟩

/-- A string survives exactly if no two of its surrogates form a pair. -/
theorem decode_encode_iff (s : List CodePoint) : decode (encode s) = s ↔ Whole s := by
  induction s with
  | nil => exact iff_of_true rfl .nil
  | cons c s ih =>
    rw [whole_cons]
    by_cases apart : ∀ b ∈ s.head?, ¬ (IsHigh c ∧ IsLow b)
    · rw [decode_cons apart, List.cons.injEq, ih]
      exact ⟨fun same => ⟨apart, same.2⟩, fun whole => ⟨rfl, whole.2⟩⟩
    · refine iff_of_false (fun same => ?_) fun whole => apart whole.1
      simp only [not_forall, not_not] at apart
      obtain ⟨b, head, high, low⟩ := apart
      cases s with
      | nil => cases head
      | cons first rest =>
        cases head
        obtain ⟨joined, large, read⟩ := decode_pair high low rest
        have first := congrArg Fin.val (List.cons.inj (read.symm.trans same)).1
        have below := high.2
        omega

/-- The first code point that is read is the first unit or a character. -/
theorem isLow_of_head {rest : List CodeUnit} {b : CodePoint} (head : b ∈ (decode (u :: rest)).head?) (low : IsLow b) :
    IsLow u := by
  have lone (first : b ∈ some (single u)) : IsLow u := by
    obtain rfl := Option.some.inj first
    rwa [single_val] at low
  cases rest with
  | nil => exact lone head
  | cons v rest =>
    rw [decode] at head
    split at head
    · rename_i pair
      obtain rfl := Option.some.inj head
      rw [join_val pair.1 pair.2] at low
      have above := low.2
      omega
    · exact lone head

/-- What has been read once is read the same again. -/
theorem whole_decode (units : List CodeUnit) : Whole (decode units) := by
  induction units using decode.induct with
  | case1 => exact .nil
  | case2 u => exact .singleton _
  | case3 u v rest pair ih =>
    rw [decode, if_pos pair, whole_cons]
    refine ⟨fun b _ both => ?_, ih⟩
    rw [join_val pair.1 pair.2] at both
    obtain ⟨⟨_, _⟩, _⟩ := both
    omega
  | case4 u v rest apart ih =>
    rw [decode, if_neg apart, whole_cons]
    refine ⟨fun b head both => apart ?_, ih⟩
    rw [single_val] at both
    refine ⟨both.1, ?_⟩
    exact isLow_of_head head both.2

end Utf16
