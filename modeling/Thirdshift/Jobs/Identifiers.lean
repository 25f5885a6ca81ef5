import Mathlib.Data.Nat.Digits.Lemmas
import Thirdshift.Jobs.Validation

/-!
# The order of identifiers

An identifier is a number of 128 bits, the time before the entropy, in digits of five bits. The
alphabet is in the order of the characters, so identifiers of the same kind sort by time.
-/

namespace Thirdshift

def validatePrefix (kind : String) : Except String Unit :=
  if kind = "" then .error "id prefix is required"
  else if kind.toList.zipIdx.all fun (r, i) =>
    'a' ≤ r && r ≤ 'z' || 0 < i && '0' ≤ r && r ≤ '9' then .ok ()
  else .error ("invalid id prefix " ++ kind.quote)

/-- The class `[0-9A-HJKMNP-TV-Z]`. -/
abbrev IDChar (d : Char) : Prop :=
  '0' ≤ d ∧ d ≤ '9' ∨ 'A' ≤ d ∧ d ≤ 'H' ∨ d = 'J' ∨ d = 'K' ∨ d = 'M' ∨ d = 'N' ∨
    'P' ≤ d ∧ d ≤ 'T' ∨ 'V' ≤ d ∧ d ≤ 'Z'

/-- The pattern `^[a-z][a-z0-9]*_[0-9A-HJKMNP-TV-Z]{26}$` of the database. -/
def MatchesID (id : String) : Prop := ∃ c kind digits, id.toList = c :: kind ++ '_' :: digits ∧
  ('a' ≤ c ∧ c ≤ 'z') ∧ (∀ r ∈ kind, 'a' ≤ r ∧ r ≤ 'z' ∨ '0' ≤ r ∧ r ≤ '9') ∧
  digits.length = 26 ∧ ∀ d ∈ digits, IDChar d

/-! ### Bytes and digits as numbers -/

section

open List

def valueOf (data : List UInt8) : Nat := Nat.ofDigits 256 (data.reverse.map UInt8.toNat)

theorem valueOf_append (a b : List UInt8) :
    valueOf (a ++ b) = valueOf a * 256 ^ b.length + valueOf b := by
  simp [valueOf, Nat.ofDigits_append]
  ring

theorem digit_lt (data : List UInt8) : ∀ d ∈ data.reverse.map UInt8.toNat, d < 256 := by
  intro d member
  obtain ⟨byte, -, rfl⟩ := mem_map.mp member
  exact byte.toNat_lt

theorem valueOf_lt (data : List UInt8) : valueOf data < 256 ^ data.length := by
  simpa [valueOf] using Nat.ofDigits_lt_base_pow_length (by decide) (digit_lt data)

theorem valueOf_inj {a b : List UInt8} (size : a.length = b.length) (same : valueOf a = valueOf b) :
    a = b := by
  have digits := Nat.ofDigits_inj_of_len_eq (by decide) (by simpa using size) (digit_lt a)
    (digit_lt b) same
  exact reverse_injective (map_injective_iff.mpr (fun _ _ => UInt8.toNat.inj) digits)

theorem toNat_bigEndian {data : List UInt8} (short : data.length ≤ 8) :
    (bigEndian data).toNat = valueOf data := by
  induction data using reverseRecOn with
  | nil => rfl
  | append_singleton data byte ih =>
    have shorter : data.length ≤ 7 := by
      rw [length_append, length_singleton] at short
      omega
    have ih := ih (by omega)
    have small : valueOf data < 256 ^ 7 :=
      (valueOf_lt data).trans_le (Nat.pow_le_pow_right (by decide) shorter)
    have next : bigEndian (data ++ [byte]) = bigEndian data <<< 8 ||| byte.toUInt64 := by
      simp [bigEndian]
    have low : byte.toNat < 2 ^ 8 := byte.toNat_lt
    rw [next, UInt64.toNat_or, UInt64.toNat_shiftLeft, ih, UInt8.toNat_toUInt64, valueOf_append]
    have fits : valueOf data <<< 8 < 2 ^ 64 := by
      rw [Nat.shiftLeft_eq]
      omega
    have last : valueOf [byte] = byte.toNat := by simp [valueOf]
    rw [show (8 : UInt64).toNat % 64 = 8 from rfl, Nat.mod_eq_of_lt fits,
      ← Nat.shiftLeft_add_eq_or_of_lt low, Nat.shiftLeft_eq, last]
    rfl

/-- The last digits of a number to the base 32, the least significant one at the end. -/
def digitsOf : Nat → Nat → List Char
  | 0, _ => []
  | n + 1, v => digitsOf n (v / 32) ++ [crockford.getD (v % 32) '0']

theorem crockfordDigits_eq (n : Nat) (hi lo : UInt64) (out : List Char) :
    crockfordDigits n hi lo out = digitsOf n (hi.toNat * 2 ^ 64 + lo.toNat) ++ out := by
  induction n generalizing hi lo out with
  | zero => rfl
  | succ n ih =>
    have low : (lo &&& 31).toNat = (hi.toNat * 2 ^ 64 + lo.toNat) % 32 := by
      rw [UInt64.toNat_and, show (31 : UInt64).toNat = 2 ^ 5 - 1 from rfl,
        Nat.and_two_pow_sub_one_eq_mod]
      omega
    have shifted : (hi >>> 5).toNat * 2 ^ 64 + ((lo >>> 5) ||| ((hi &&& 31) <<< 59)).toNat =
        (hi.toNat * 2 ^ 64 + lo.toNat) / 32 := by
      rw [UInt64.toNat_or, Nat.or_comm, UInt64.toNat_shiftLeft, UInt64.toNat_and,
        show (31 : UInt64).toNat = 2 ^ 5 - 1 from rfl, Nat.and_two_pow_sub_one_eq_mod,
        UInt64.toNat_shiftRight, UInt64.toNat_shiftRight, show (5 : UInt64).toNat % 64 = 5 from rfl,
        show (59 : UInt64).toNat % 64 = 59 from rfl, Nat.mod_eq_of_lt,
        ← Nat.shiftLeft_add_eq_or_of_lt]
      all_goals simp only [Nat.shiftLeft_eq, Nat.shiftRight_eq_div_pow]
      all_goals have := lo.toNat_lt
      all_goals omega
    rw [crockfordDigits, ih, shifted, low]
    simp [digitsOf]

theorem length_digitsOf (n v : Nat) : (digitsOf n v).length = n := by
  induction n generalizing v with
  | zero => rfl
  | succ n ih => simp [digitsOf, ih]

theorem append_lt_append_iff {a b : List Char} {x y : Char} (size : a.length = b.length) :
    a ++ [x] < b ++ [y] ↔ a < b ∨ a = b ∧ x < y := by
  induction a generalizing b with
  | nil =>
    cases length_eq_zero_iff.mp size.symm
    simp [cons_lt_cons_iff]
  | cons c a ih =>
    obtain ⟨d, b, rfl⟩ := exists_cons_of_length_eq_add_one size.symm
    have rest := ih (by simpa using size)
    simp only [cons_append, cons_lt_cons_iff, rest, cons.injEq]
    tauto

theorem crockford_lt_iff (v w : Nat) :
    crockford.getD (v % 32) '0' < crockford.getD (w % 32) '0' ↔ v % 32 < w % 32 := by
  have all : ∀ i < 32, ∀ j < 32, crockford.getD i '0' < crockford.getD j '0' ↔ i < j := by
    decide +kernel
  exact all _ (Nat.mod_lt _ (by decide)) _ (Nat.mod_lt _ (by decide))

theorem digitsOf_inj {n v w : Nat} (small : v < 32 ^ n) (small' : w < 32 ^ n)
    (same : digitsOf n v = digitsOf n w) : v = w := by
  induction n generalizing v w with
  | zero => omega
  | succ n ih =>
    obtain ⟨front, last⟩ := append_inj' same rfl
    have quotient := ih (by omega) (by omega) front
    have up := crockford_lt_iff v w
    have down := crockford_lt_iff w v
    rw [(cons.inj last).1] at up down
    simp only [Char.lt_irrefl, false_iff] at up down
    omega

theorem digitsOf_lt_iff {n v w : Nat} (small : v < 32 ^ n) (small' : w < 32 ^ n) :
    digitsOf n v < digitsOf n w ↔ v < w := by
  induction n generalizing v w with
  | zero =>
    have : v = w := by omega
    simp [digitsOf, this]
  | succ n ih =>
    have front : v / 32 < 32 ^ n ∧ w / 32 < 32 ^ n := by omega
    have same : digitsOf n (v / 32) = digitsOf n (w / 32) ↔ v / 32 = w / 32 :=
      ⟨digitsOf_inj front.1 front.2, fun same => by rw [same]⟩
    rw [digitsOf, digitsOf, append_lt_append_iff (by simp [length_digitsOf]),
      ih front.1 front.2, same, crockford_lt_iff]
    omega

end

/-! ### Identifiers -/

theorem encodeULIDTimeEntropy_eq {ms : UInt64} (small : ms.toNat < 2 ^ 48) (entropy : Vector UInt8 10) :
    encodeULIDTimeEntropy ms entropy =
      digitsOf 26 (ms.toNat * 2 ^ 80 + valueOf entropy.toList) := by
  generalize data : ([40, 32, 24, 16, 8, 0] : List UInt64).map
    (fun shift => (ms >>> shift).toUInt8) = time
  have size : time.length = 6 := by simp [← data]
  have value : valueOf time = ms.toNat := by
    simp [← data, valueOf, Nat.ofDigits, UInt64.toNat_shiftRight, Nat.shiftRight_eq_div_pow]
    omega
  rw [encodeULIDTimeEntropy, encodeCrockford128, crockfordDigits_eq, List.append_nil, data,
    toNat_bigEndian (by simp), toNat_bigEndian (by simp [size])]
  have whole := valueOf_append ((time ++ entropy.toList).take 8) ((time ++ entropy.toList).drop 8)
  rw [List.take_append_drop, valueOf_append] at whole
  simp only [List.length_drop, List.length_append, size, Vector.length_toList, value] at whole
  exact congrArg _ whole.symm

theorem newID_matchesID {kind : String} (valid : validatePrefix kind = .ok ()) (ms : UInt64)
    (entropy : Vector UInt8 10) : MatchesID (newID kind ms entropy) := by
  have all : crockford.all fun d => IDChar d := by decide +kernel
  have digit : ∀ d ∈ crockford, IDChar d := by simpa using all
  unfold validatePrefix at valid
  split at valid
  · cases valid
  next named =>
    split at valid
    next runes =>
      cases chars : kind.toList with
      | nil => exact absurd (String.toList_eq_nil_iff.mp chars) named
      | cons c rest =>
        rw [chars, List.zipIdx_cons, List.all_cons, Bool.and_eq_true, List.all_eq_true] at runes
        refine ⟨c, rest, encodeULIDTimeEntropy ms entropy, by simp [newID, chars], ?_, ?_,
          length_crockfordDigits 26 _ _ [],
          fun d member => digit d (mem_crockfordDigits 26 _ _ [] (by simp) d member)⟩
        · simpa using runes.1
        · intro r member
          rw [← List.zipIdx_map_fst 1 rest] at member
          obtain ⟨⟨r, i⟩, inside, rfl⟩ := List.mem_map.mp member
          have rune := runes.2 _ inside
          simp only [Bool.or_eq_true, Bool.and_eq_true, decide_eq_true_eq] at rune
          exact rune.imp_right fun digit => ⟨digit.1.2, digit.2⟩
    · cases valid

/-- Identifiers are different for different times or entropies, sort by time and then by entropy,
and have the form the database asks for. -/
theorem identifiers_sort_by_time :
    (∀ (ms ms' : UInt64) (entropy entropy' : Vector UInt8 10),
      ms.toNat < 2 ^ 48 → ms'.toNat < 2 ^ 48 →
      (encodeULIDTimeEntropy ms entropy = encodeULIDTimeEntropy ms' entropy' →
        ms = ms' ∧ entropy = entropy') ∧
      (encodeULIDTimeEntropy ms entropy < encodeULIDTimeEntropy ms' entropy' ↔
        ms < ms' ∨ ms = ms' ∧ valueOf entropy.toList < valueOf entropy'.toList)) ∧
    ∀ kind ms entropy, validatePrefix kind = .ok () → MatchesID (newID kind ms entropy) := by
  refine ⟨?_, fun kind ms entropy valid => newID_matchesID valid ms entropy⟩
  intro ms ms' entropy entropy' small small'
  have low : valueOf entropy.toList < 2 ^ 80 := by simpa using valueOf_lt entropy.toList
  have low' : valueOf entropy'.toList < 2 ^ 80 := by simpa using valueOf_lt entropy'.toList
  rw [encodeULIDTimeEntropy_eq small, encodeULIDTimeEntropy_eq small']
  constructor
  · intro same
    have value := digitsOf_inj (by omega) (by omega) same
    exact ⟨UInt64.toNat.inj (by omega), Vector.toList_inj.mp (valueOf_inj (by simp) (by omega))⟩
  · rw [digitsOf_lt_iff (by omega) (by omega), UInt64.lt_iff_toNat_lt, ← UInt64.toNat_inj]
    omega

end Thirdshift
