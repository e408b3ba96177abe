/-
Bytes written as hexadecimal digits.

A byte is written as two digits, the high half first, in lower case.  Reading takes two
characters at a time, in either case, and stops at the first two that are not both digits.  So
what is written is read back (`ofHex_toHex`), and a text of digits gives half as many bytes
(`length_ofHex`).
-/
import Mathlib.Data.Fin.Basic

namespace NexusEfos

/-- The digit of a number below sixteen. -/
def hexDigit (n : ℕ) : Char := "0123456789abcdef".toList.getD n '0'

/-- The number a digit stands for. -/
def hexValue (c : Char) : Option ℕ :=
  if '0' ≤ c ∧ c ≤ '9' then some (c.toNat - '0'.toNat)
  else if 'a' ≤ c ∧ c ≤ 'f' then some (c.toNat - 'a'.toNat + 10)
  else if 'A' ≤ c ∧ c ≤ 'F' then some (c.toNat - 'A'.toNat + 10)
  else none

def toHex (bytes : List UInt8) : List Char :=
  bytes.flatMap fun b => [hexDigit (b.toNat / 16), hexDigit (b.toNat % 16)]

def ofHex : List Char → List UInt8
  | c :: d :: rest =>
    match hexValue c, hexValue d with
    | some h, some l => UInt8.ofNat (16 * h + l) :: ofHex rest
    | _, _ => []
  | _ => []

theorem hexValue_hexDigit {n : ℕ} (hn : n < 16) : hexValue (hexDigit n) = some n := by
  have h : ∀ n : Fin 16, hexValue (hexDigit n) = some n.val := by decide
  exact h ⟨n, hn⟩

theorem toHex_cons (b : UInt8) (bytes : List UInt8) :
    toHex (b :: bytes) = hexDigit (b.toNat / 16) :: hexDigit (b.toNat % 16) :: toHex bytes := rfl

theorem toHex_eq_nil {bytes : List UInt8} : toHex bytes = [] ↔ bytes = [] := by
  cases bytes with
  | nil => exact iff_of_true rfl rfl
  | cons b bytes => simp [toHex_cons]

/-- Every character that is written is a digit. -/
theorem isSome_hexValue_of_mem {bytes : List UInt8} {c : Char} (hc : c ∈ toHex bytes) :
    (hexValue c).isSome = true := by
  obtain ⟨b, -, hb⟩ := List.mem_flatMap.mp hc
  have hbyte : b.toNat < 256 := b.toNat_lt
  rcases List.mem_cons.mp hb with rfl | hlow
  · rw [hexValue_hexDigit (by omega)]
    rfl
  · rw [List.mem_singleton] at hlow
    rw [hlow, hexValue_hexDigit (by omega)]
    rfl

theorem ofHex_toHex (bytes : List UInt8) : ofHex (toHex bytes) = bytes := by
  induction bytes with
  | nil => rfl
  | cons b bytes ih =>
    have hbyte : b.toNat < 256 := b.toNat_lt
    have hhalves : 16 * (b.toNat / 16) + b.toNat % 16 = b.toNat := Nat.div_add_mod _ _
    simp only [toHex_cons, ofHex, hexValue_hexDigit (show b.toNat / 16 < 16 by omega),
      hexValue_hexDigit (show b.toNat % 16 < 16 by omega), hhalves, ih]
    rw [UInt8.ofNat_toNat]

/-- A text of digits is read to its end. -/
theorem length_ofHex {cs : List Char} (h : ∀ c ∈ cs, (hexValue c).isSome = true) :
    (ofHex cs).length = cs.length / 2 := by
  induction cs using ofHex.induct with
  | case1 c d rest x y hc hd ih =>
    have hrest := ih fun e he => h e (List.mem_cons_of_mem c (List.mem_cons_of_mem d he))
    simp only [ofHex, hc, hd, List.length_cons, hrest]
    omega
  | case2 c d rest hnone =>
    obtain ⟨x, hx⟩ := Option.isSome_iff_exists.mp (h c (by simp))
    obtain ⟨y, hy⟩ := Option.isSome_iff_exists.mp (h d (by simp))
    exact absurd hy (hnone x y hx)
  | case3 cs hshort =>
    cases cs with
    | nil => rfl
    | cons c cs =>
      cases cs with
      | nil => simp [ofHex]
      | cons d rest => exact absurd rfl (hshort c d rest)

end NexusEfos
