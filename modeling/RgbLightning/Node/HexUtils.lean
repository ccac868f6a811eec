import RgbLightning.Base.Words
import RgbLightning.Node.Types

/-! # Hexadecimal text -/
namespace RgbLightning.HexUtils
open Decimal Words

def nibble (c : Char) : Option UInt8 :=
  if 'A' ≤ c ∧ c ≤ 'F' then some (UInt8.ofNat (c.toNat - 'A'.toNat + 10))
  else if 'a' ≤ c ∧ c ≤ 'f' then some (UInt8.ofNat (c.toNat - 'a'.toNat + 10))
  else if '0' ≤ c ∧ c ≤ '9' then some (UInt8.ofNat (c.toNat - '0'.toNat))
  else none

/-- The decoder loop: index, half-filled byte and bytes so far. -/
def toVecFrom : ℕ → UInt8 → List UInt8 → Text → Option (List UInt8)
  | _, _, out, [] => some out
  | idx, b, out, c :: cs =>
    match nibble c with
    | none => none
    | some n =>
      let b := (b <<< 4) ||| n
      if idx % 2 = 1 then toVecFrom (idx + 1) 0 (out ++ [b]) cs else toVecFrom (idx + 1) b out cs

def toVec (hex : Text) : Option (List UInt8) := toVecFrom 0 0 [] hex

def hexDigit (n : ℕ) : Char := Nat.digitChar n

def hexStr (value : List UInt8) : Text :=
  value.flatMap fun v => [hexDigit (v.toNat / 16), hexDigit (v.toNat % 16)]

/-- Decode to a fixed-size identifier, as the callers of `toVec` do. -/
def toBytes32 (hex : Text) : Option Bytes32 :=
  (toVec hex).bind fun v => if h : v.length = 32 then some ⟨v, h⟩ else none

section RoundTrip

theorem nibble_hexDigit : ∀ n < 16, nibble (hexDigit n) = some (UInt8.ofNat n) := by decide

/-- The two halves of a byte, shifted in one after the other. -/
theorem shiftIn_halves (v : UInt8) :
    (((0 : UInt8) <<< 4 ||| UInt8.ofNat (v.toNat / 16)) <<< 4) ||| UInt8.ofNat (v.toNat % 16) = v := by
  have hall : ∀ n : Fin 256, (((0 : UInt8) <<< 4 ||| UInt8.ofNat (n.val / 16)) <<< 4 |||
      UInt8.ofNat (n.val % 16)) = UInt8.ofNat n.val := by decide +kernel
  have hv := hall ⟨v.toNat, v.toNat_lt⟩
  rwa [UInt8.ofNat_toNat] at hv

theorem toVecFrom_hexStr (value : List UInt8) (idx : ℕ) (heven : idx % 2 = 0) (out : List UInt8) :
    toVecFrom idx 0 out (hexStr value) = some (out ++ value) := by
  induction value generalizing idx out with
  | nil => simp [hexStr, toVecFrom]
  | cons v rest ih =>
    have hbyte : v.toNat < 256 := v.toNat_lt
    have hhigh := nibble_hexDigit (v.toNat / 16) (by omega)
    have hlow := nibble_hexDigit (v.toNat % 16) (by omega)
    have hcons : hexStr (v :: rest) =
        hexDigit (v.toNat / 16) :: hexDigit (v.toNat % 16) :: hexStr rest := rfl
    have hfirst : ¬idx % 2 = 1 := by omega
    have hsecond : (idx + 1) % 2 = 1 := by omega
    have hnext : (idx + 1 + 1) % 2 = 0 := by omega
    rw [hcons, toVecFrom, hhigh]
    simp only [if_neg hfirst]
    rw [toVecFrom, hlow]
    simp only [if_pos hsecond]
    rw [shiftIn_halves, ih (idx + 1 + 1) hnext]
    simp

/-- Bytes are read back from their hexadecimal text. -/
@[simp] theorem toVec_hexStr (value : List UInt8) : toVec (hexStr value) = some value := by
  have h := toVecFrom_hexStr value 0 rfl []
  rwa [List.nil_append] at h

@[simp] theorem toBytes32_hexStr (v : Bytes32) : toBytes32 (hexStr v.val) = some v := by
  obtain ⟨value, hlength⟩ := v
  simp [toBytes32, hlength]

theorem hexDigit_clean : ∀ n < 16, isWhitespace (hexDigit n) = false ∧ hexDigit n ≠ ':' := by
  decide

theorem hexStr_clean {value : List UInt8} {c : Char} (h : c ∈ hexStr value) :
    isWhitespace c = false ∧ c ≠ ':' := by
  obtain ⟨v, -, hc⟩ := List.mem_flatMap.mp h
  have hbyte : v.toNat < 256 := v.toNat_lt
  rcases List.mem_pair.mp hc with rfl | rfl
  · exact hexDigit_clean _ (by omega)
  · exact hexDigit_clean _ (by omega)

end RoundTrip

section Grammar

/-- Hexadecimal digits only, in either case. -/
def IsHex (s : Text) : Prop := ∀ c ∈ s, c.isHexDigit = true

theorem mem_of_isHexDigit {c : Char} (h : c.isHexDigit = true) :
    c ∈ "0123456789abcdefABCDEF".toList := by
  simp only [Char.isHexDigit, Char.isDigit, Bool.or_eq_true, Bool.and_eq_true, decide_eq_true_eq,
    ge_iff_le, UInt32.le_iff_toNat_le] at h
  change ((48 ≤ c.toNat ∧ c.toNat ≤ 57) ∨ (97 ≤ c.toNat ∧ c.toNat ≤ 102)) ∨
    (65 ≤ c.toNat ∧ c.toNat ≤ 70) at h
  have hrange : ∀ n < 103, ((48 ≤ n ∧ n ≤ 57) ∨ (97 ≤ n ∧ n ≤ 102)) ∨ (65 ≤ n ∧ n ≤ 70) →
      Char.ofNat n ∈ "0123456789abcdefABCDEF".toList := by decide
  have hc := hrange c.toNat (by omega) h
  rwa [Char.ofNat_toNat] at hc

/-- The digits are those that have a value. -/
theorem nibble_isSome (c : Char) : (nibble c).isSome = c.isHexDigit := by
  unfold nibble Char.isHexDigit Char.isDigit
  simp only [Char.le_def]
  split
  · simp_all
  · split
    · simp_all
    · split <;> simp_all

/-- A digit is printed in lower case. -/
theorem hexDigit_nibble : ∀ c ∈ "0123456789abcdefABCDEF".toList, ∀ n ∈ nibble c,
    n.toNat < 16 ∧ hexDigit n.toNat = c.toLower := by
  have hall : "0123456789abcdefABCDEF".toList.all (fun c =>
      (nibble c).all fun n => n.toNat < 16 ∧ hexDigit n.toNat = c.toLower) = true := by decide
  intro c hc n hn
  have hdigit := List.all_eq_true.mp hall c hc
  rw [Option.mem_def.mp hn] at hdigit
  simpa using hdigit

/-- Two digits shifted into an empty byte. -/
def joinHalves (high low : UInt8) : UInt8 := (((0 : UInt8) <<< 4 ||| high) <<< 4) ||| low

theorem joinHalves_toNat {high low : UInt8} (hhigh : high.toNat < 16) (hlow : low.toNat < 16) :
    (joinHalves high low).toNat / 16 = high.toNat ∧ (joinHalves high low).toNat % 16 = low.toNat := by
  have hall : ∀ m < 16, ∀ n < 16, (joinHalves (UInt8.ofNat m) (UInt8.ofNat n)).toNat / 16 = m ∧
      (joinHalves (UInt8.ofNat m) (UInt8.ofNat n)).toNat % 16 = n := by decide +kernel
  have h := hall high.toNat hhigh low.toNat hlow
  rwa [UInt8.ofNat_toNat, UInt8.ofNat_toNat] at h


theorem toVecFrom_pair {idx : ℕ} (heven : idx % 2 = 0) (out : List UInt8) {c d : Char} {m n : UInt8}
    (hc : nibble c = some m) (hd : nibble d = some n) (rest : Text) :
    toVecFrom idx 0 out (c :: d :: rest) =
      toVecFrom (idx + 1 + 1) 0 (out ++ [joinHalves m n]) rest := by
  have hfirst : ¬idx % 2 = 1 := by omega
  have hsecond : (idx + 1) % 2 = 1 := by omega
  rw [toVecFrom, hc]
  simp only [if_neg hfirst]
  rw [toVecFrom, hd]
  simp only [if_pos hsecond]
  rfl

theorem hexStr_cons (v : UInt8) (w : List UInt8) :
    hexStr (v :: w) = hexDigit (v.toNat / 16) :: hexDigit (v.toNat % 16) :: hexStr w := rfl

theorem hexDigit_injOn : ∀ m < 16, ∀ n < 16, hexDigit m = hexDigit n → m = n := by decide

/-- A byte is printed as two given digits iff it is the one they are the halves of. -/
theorem hexStr_pair_iff {v : UInt8} {c d : Char} {m n : UInt8} (hc : nibble c = some m)
    (hd : nibble d = some n) : hexDigit (v.toNat / 16) = c.toLower ∧ hexDigit (v.toNat % 16) = d.toLower ↔
      v = joinHalves m n := by
  obtain ⟨hm, hmc⟩ := hexDigit_nibble c (mem_of_isHexDigit (by simp [← nibble_isSome, hc])) m hc
  obtain ⟨hn, hnd⟩ := hexDigit_nibble d (mem_of_isHexDigit (by simp [← nibble_isSome, hd])) n hd
  obtain ⟨hhigh, hlow⟩ := joinHalves_toNat hm hn
  rw [← hmc, ← hnd]
  constructor
  · intro h
    have hbyte : v.toNat < 256 := v.toNat_lt
    have hvm := hexDigit_injOn _ (by omega) _ hm h.1
    have hvn := hexDigit_injOn _ (by omega) _ hn h.2
    apply UInt8.toNat_inj.mp
    omega
  · rintro rfl
    rw [hhigh, hlow]
    exact ⟨rfl, rfl⟩

theorem exists_append_hexStr {out v : List UInt8} :
    (∃ w, v = out ++ w ∧ hexStr w = []) ↔ out = v := by
  constructor
  · rintro ⟨w, rfl, hw⟩
    cases w with
    | nil => simp
    | cons b w => cases hw
  · rintro rfl
    exact ⟨[], by simp, rfl⟩

/-- The decoder takes hexadecimal digits only, and pairs them from the left. A digit
that is left over is dropped. -/
theorem toVecFrom_eq_some_iff {s : Text} {idx : ℕ} (heven : idx % 2 = 0) {out v : List UInt8} :
    toVecFrom idx 0 out s = some v ↔ IsHex s ∧ ∃ w, v = out ++ w ∧
      hexStr w = (s.take (s.length / 2 * 2)).map Char.toLower := by
  induction s using List.twoStepInduction generalizing idx out with
  | nil => simp [toVecFrom, IsHex, exists_append_hexStr]
  | singleton c =>
    have hodd : ¬idx % 2 = 1 := by omega
    cases hc : nibble c with
    | none =>
      have hdigit : c.isHexDigit = false := by simp [← nibble_isSome, hc]
      simp [toVecFrom, hc, IsHex, hdigit]
    | some m =>
      have hdigit : c.isHexDigit = true := by simp [← nibble_isSome, hc]
      simp [toVecFrom, hc, IsHex, hdigit, hodd, exists_append_hexStr]
  | cons_cons c d rest ih =>
    have hlength : (c :: d :: rest).length / 2 * 2 = rest.length / 2 * 2 + 1 + 1 := by
      simp only [List.length_cons]
      omega
    cases hc : nibble c with
    | none =>
      have hdigit : c.isHexDigit = false := by simp [← nibble_isSome, hc]
      simp [toVecFrom, hc, IsHex, hdigit]
    | some m =>
      cases hd : nibble d with
      | none =>
        have hdigit : d.isHexDigit = false := by simp [← nibble_isSome, hd]
        have hodd : ¬idx % 2 = 1 := by omega
        simp [toVecFrom, hc, hd, IsHex, hdigit, hodd]
      | some n =>
        have hdigits : IsHex (c :: d :: rest) ↔ IsHex rest := by
          simp [IsHex, ← nibble_isSome, hc, hd]
        have hnext : (idx + 1 + 1) % 2 = 0 := by omega
        rw [toVecFrom_pair heven out hc hd, ih hnext, hdigits, hlength, List.take_succ_cons,
          List.take_succ_cons, List.map_cons, List.map_cons]
        apply and_congr_right
        intro _
        constructor
        · rintro ⟨w, rfl, hw⟩
          obtain ⟨hhigh, hlow⟩ := (hexStr_pair_iff hc hd).mpr rfl
          refine ⟨joinHalves m n :: w, by simp, ?_⟩
          rw [hexStr_cons, hhigh, hlow, hw]
        · rintro ⟨w, rfl, hw⟩
          cases w with
          | nil => cases hw
          | cons b w =>
            obtain ⟨hhigh, hrest⟩ := List.cons.inj hw
            obtain ⟨hlow, hrest⟩ := List.cons.inj hrest
            have hb : b = joinHalves m n := (hexStr_pair_iff hc hd).mp ⟨hhigh, hlow⟩
            exact ⟨w, by simp [hb], hrest⟩

/-- What is accepted: hexadecimal digits, of which the bytes are the whole pairs. -/
theorem toVec_eq_some_iff {hex : Text} {v : List UInt8} :
    toVec hex = some v ↔ IsHex hex ∧ hexStr v = (hex.take (hex.length / 2 * 2)).map Char.toLower := by
  rw [toVec, toVecFrom_eq_some_iff rfl]
  simp

theorem toVecFrom_isSome {s : Text} (h : IsHex s) (idx : ℕ) (b : UInt8) (out : List UInt8) :
    (toVecFrom idx b out s).isSome = true := by
  induction s generalizing idx b out with
  | nil => rfl
  | cons c s ih =>
    have hc : (nibble c).isSome = true := by
      rw [nibble_isSome]
      exact h c (List.mem_cons_self ..)
    obtain ⟨n, hn⟩ := Option.isSome_iff_exists.mp hc
    have hs : IsHex s := fun d hd => h d (List.mem_cons_of_mem _ hd)
    rw [toVecFrom, hn]
    dsimp only
    split
    · exact ih hs _ _ _
    · exact ih hs _ _ _

@[simp] theorem hexStr_length (value : List UInt8) : (hexStr value).length = 2 * value.length := by
  induction value with
  | nil => rfl
  | cons v rest ih =>
    rw [hexStr_cons, List.length_cons, List.length_cons, ih, List.length_cons]
    omega

theorem toBytes32_length {hex : Text} {v : Bytes32} (h : toBytes32 hex = some v) :
    IsHex hex ∧ hex.length / 2 = 32 := by
  obtain ⟨value, hvalue, hlength⟩ := Option.bind_eq_some_iff.mp h
  obtain ⟨hhex, hprinted⟩ := toVec_eq_some_iff.mp hvalue
  have hcount := congrArg List.length hprinted
  split at hlength
  · simp only [hexStr_length, List.length_map, List.length_take] at hcount
    refine ⟨hhex, ?_⟩
    omega
  · cases hlength

/-- Decoding to `v` means being `v` in hexadecimal, in either case. -/
def DecodesExactly (hex : Text) : Prop :=
  ∀ v, toVec hex = some v ↔ hex.length % 2 = 0 ∧ IsHex hex ∧ hexStr v = hex.map Char.toLower

/-- A digit is left over. -/
def OddHex (hex : Text) : Prop := IsHex hex ∧ hex.length % 2 = 1

theorem decodesExactly_iff (hex : Text) : DecodesExactly hex ↔ ¬OddHex hex := by
  constructor
  · intro hexact hodd
    obtain ⟨hhex, hlength⟩ := hodd
    obtain ⟨v, hv⟩ := Option.isSome_iff_exists.mp (toVecFrom_isSome hhex 0 0 [])
    have heven := ((hexact v).mp hv).1
    omega
  · intro hpaired v
    rw [toVec_eq_some_iff]
    by_cases hhex : IsHex hex
    · have heven : hex.length % 2 = 0 := by
        by_contra hodd
        exact hpaired ⟨hhex, by omega⟩
      have hall : hex.length / 2 * 2 = hex.length := by omega
      simp [hhex, heven, hall]
    · simp [hhex]

end Grammar

end RgbLightning.HexUtils
