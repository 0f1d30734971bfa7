import Mathlib.Data.List.GetD
import VorCommander.Text.Strings

/-!
Base64 as the two engines of the program read and write it. `STANDARD`
requires padding and expects the bits a final group does not use to be zero;
`URL_SAFE_NO_PAD` has its own last two characters and never pads.
-/

namespace VorCommander.Text.Base64

def alphabet : List Char :=
  "ABCDEFGHIJKLMNOPQRSTUVWXYZabcdefghijklmnopqrstuvwxyz0123456789+/".toList

def urlSafeAlphabet : List Char :=
  "ABCDEFGHIJKLMNOPQRSTUVWXYZabcdefghijklmnopqrstuvwxyz0123456789-_".toList

/-- The character of a six-bit value. -/
def symbol (alphabet : List Char) (n : ℕ) : Char := alphabet.getD n 'A'

/-- The six-bit value of a character. -/
def value (c : Char) : Option ℕ := alphabet.idxOf? c

/-- The six-bit values of a byte string, the last one filled up with zeros. -/
def sextets : List UInt8 → List ℕ
  | [] => []
  | [a] => [a.toNat / 4, a.toNat % 4 * 16]
  | [a, b] => [a.toNat / 4, a.toNat % 4 * 16 + b.toNat / 16, b.toNat % 16 * 4]
  | a :: b :: c :: rest =>
      a.toNat / 4 :: (a.toNat % 4 * 16 + b.toNat / 16) :: (b.toNat % 16 * 4 + c.toNat / 64) ::
        c.toNat % 64 :: sextets rest

/-- The characters that fill up the last group. -/
def padding (bytes : List UInt8) : List Char := List.replicate ((3 - bytes.length % 3) % 3) '='

/-- `STANDARD.encode`. -/
def encode (bytes : List UInt8) : String :=
  String.ofList ((sextets bytes).map (symbol alphabet) ++ padding bytes)

/-- `URL_SAFE_NO_PAD.encode`. -/
def encodeUrlSafe (bytes : List UInt8) : String :=
  String.ofList ((sextets bytes).map (symbol urlSafeAlphabet))

/-- Four characters stand for three bytes. -/
theorem length_sextets (bytes : List UInt8) :
    (sextets bytes).length = (4 * bytes.length + 2) / 3 := by
  induction bytes using sextets.induct with
  | case1 => rfl
  | case2 a => simp [sextets]
  | case3 a b => simp [sextets]
  | case4 a b c rest ih =>
      simp only [sextets, List.length_cons, ih]
      omega

theorem sextets_lt {bytes : List UInt8} : ∀ n ∈ sextets bytes, n < 64 := by
  induction bytes using sextets.induct with
  | case1 => simp [sextets]
  | case2 a =>
      have := a.toNat_lt
      simp only [sextets, List.forall_mem_cons]
      exact ⟨by omega, by omega, by simp⟩
  | case3 a b =>
      have := a.toNat_lt
      have := b.toNat_lt
      simp only [sextets, List.forall_mem_cons]
      exact ⟨by omega, by omega, by omega, by simp⟩
  | case4 a b c rest ih =>
      have := a.toNat_lt
      have := b.toNat_lt
      have := c.toNat_lt
      simp only [sextets, List.forall_mem_cons]
      exact ⟨by omega, by omega, by omega, by omega, ih⟩

/-- The bytes can be read off their six-bit values. -/
theorem sextets_injective : Function.Injective sextets := by
  intro bytes bytes' h
  have hlength : bytes.length = bytes'.length := by
    have := congrArg List.length h
    rw [length_sextets, length_sextets] at this
    omega
  induction bytes using sextets.induct generalizing bytes' with
  | case1 => exact (List.length_eq_zero_iff.mp hlength.symm).symm
  | case2 a =>
      obtain ⟨a', rfl⟩ := List.length_eq_one_iff.mp hlength.symm
      simp only [sextets, List.cons.injEq, and_true] at h
      rw [UInt8.toNat_inj.mp (by omega : a.toNat = a'.toNat)]
  | case3 a b =>
      obtain ⟨a', b', rfl⟩ := List.length_eq_two.mp hlength.symm
      have := b.toNat_lt
      have := b'.toNat_lt
      simp only [sextets, List.cons.injEq, and_true] at h
      rw [UInt8.toNat_inj.mp (by omega : a.toNat = a'.toNat),
        UInt8.toNat_inj.mp (by omega : b.toNat = b'.toNat)]
  | case4 a b c rest ih =>
      obtain ⟨a', b', c', rest', rfl⟩ : ∃ a' b' c' rest', bytes' = a' :: b' :: c' :: rest' := by
        match bytes', hlength with
        | a' :: b' :: c' :: rest', _ => exact ⟨a', b', c', rest', rfl⟩
      have := b.toNat_lt
      have := b'.toNat_lt
      have := c.toNat_lt
      have := c'.toNat_lt
      simp only [sextets, List.cons.injEq] at h
      simp only [List.length_cons, Nat.add_right_cancel_iff] at hlength
      rw [UInt8.toNat_inj.mp (by omega : a.toNat = a'.toNat),
        UInt8.toNat_inj.mp (by omega : b.toNat = b'.toNat),
        UInt8.toNat_inj.mp (by omega : c.toNat = c'.toNat), ih h.2.2.2.2 hlength]

/-- A character of an alphabet without repetitions is found where it stands. -/
theorem idxOf_symbol {alphabet : List Char} (hnodup : alphabet.Nodup) {n : ℕ}
    (hn : n < alphabet.length) : alphabet.idxOf (symbol alphabet n) = n := by
  rw [symbol, List.getD_eq_getElem _ _ hn]
  exact hnodup.idxOf_getElem n hn

theorem encodeUrlSafe_injective : Function.Injective encodeUrlSafe := by
  intro bytes bytes' h
  have hdecode : ∀ bytes : List UInt8,
      ((sextets bytes).map (symbol urlSafeAlphabet)).map (urlSafeAlphabet.idxOf ·) =
        sextets bytes := by
    intro bytes
    rw [List.map_map, List.map_congr_left, List.map_id]
    intro n hn
    exact idxOf_symbol (by decide) (sextets_lt n hn)
  apply sextets_injective
  rw [← hdecode bytes, String.ofList_injective h, hdecode bytes']

/-- The bytes of a sequence of characters. -/
def decodeChars : List Char → Option (List UInt8)
  | [] => some []
  | [p, q, '=', '='] => do
      let p ← value p
      let q ← value q
      if q % 16 = 0 then return [UInt8.ofNat (p * 4 + q / 16)] else none
  | [p, q, r, '='] => do
      let p ← value p
      let q ← value q
      let r ← value r
      if r % 4 = 0 then
        return [UInt8.ofNat (p * 4 + q / 16), UInt8.ofNat (q % 16 * 16 + r / 4)]
      else none
  | p :: q :: r :: s :: rest => do
      let p ← value p
      let q ← value q
      let r ← value r
      let s ← value s
      let tail ← decodeChars rest
      return UInt8.ofNat (p * 4 + q / 16) :: UInt8.ofNat (q % 16 * 16 + r / 4) ::
        UInt8.ofNat (r % 4 * 64 + s) :: tail
  | _ => none

/-- `STANDARD.decode`. -/
def decode (text : String) : Option (List UInt8) := decodeChars text.toList

/-! ### Decoding what was encoded -/

theorem value_symbol {n : ℕ} (hn : n < 64) : value (symbol alphabet n) = some n := by
  revert n
  decide +kernel

theorem symbol_ne_pad {n : ℕ} (hn : n < 64) : symbol alphabet n ≠ '=' := by
  revert n
  decide +kernel

theorem decodeChars_group {p q r s : ℕ} (hp : p < 64) (hq : q < 64) (hr : r < 64) (hs : s < 64)
    {rest : List Char} {bytes : List UInt8} (hrest : decodeChars rest = some bytes) :
    decodeChars (symbol alphabet p :: symbol alphabet q :: symbol alphabet r ::
      symbol alphabet s :: rest) =
        some (UInt8.ofNat (p * 4 + q / 16) :: UInt8.ofNat (q % 16 * 16 + r / 4) ::
          UInt8.ofNat (r % 4 * 64 + s) :: bytes) := by
  rw [decodeChars]
  · simp [value_symbol, hp, hq, hr, hs, hrest]
  · exact fun _ hpad => absurd hpad (symbol_ne_pad hs)
  · exact fun hpad => absurd hpad (symbol_ne_pad hs)

/-- `STANDARD.decode` undoes `STANDARD.encode`. -/
theorem decode_encode (bytes : List UInt8) : decode (encode bytes) = some bytes := by
  rw [decode, encode, String.toList_ofList]
  induction bytes using sextets.induct with
  | case1 => rfl
  | case2 a =>
      have ha := a.toNat_lt
      have hp : a.toNat / 4 < 64 := by omega
      have hq : a.toNat % 4 * 16 < 64 := by omega
      have hbyte : a.toNat / 4 * 4 + a.toNat % 4 * 16 / 16 = a.toNat := by omega
      have hunused : a.toNat % 4 * 16 % 16 = 0 := by omega
      change decodeChars [symbol alphabet (a.toNat / 4), symbol alphabet (a.toNat % 4 * 16),
        '=', '='] = some [a]
      rw [decodeChars, value_symbol hp, value_symbol hq]
      simp only [Option.bind_eq_bind, Option.bind_some, if_pos hunused, hbyte, UInt8.ofNat_toNat]
      rfl
  | case3 a b =>
      have ha := a.toNat_lt
      have hb := b.toNat_lt
      have hp : a.toNat / 4 < 64 := by omega
      have hq : a.toNat % 4 * 16 + b.toNat / 16 < 64 := by omega
      have hr : b.toNat % 16 * 4 < 64 := by omega
      have hfirst : a.toNat / 4 * 4 + (a.toNat % 4 * 16 + b.toNat / 16) / 16 = a.toNat := by omega
      have hsecond : (a.toNat % 4 * 16 + b.toNat / 16) % 16 * 16 + b.toNat % 16 * 4 / 4 =
          b.toNat := by omega
      have hunused : b.toNat % 16 * 4 % 4 = 0 := by omega
      change decodeChars [symbol alphabet (a.toNat / 4),
        symbol alphabet (a.toNat % 4 * 16 + b.toNat / 16), symbol alphabet (b.toNat % 16 * 4),
        '='] = some [a, b]
      rw [decodeChars, value_symbol hp, value_symbol hq, value_symbol hr]
      · simp only [Option.bind_eq_bind, Option.bind_some, if_pos hunused, hfirst, hsecond,
          UInt8.ofNat_toNat]
        rfl
      · exact fun hpad => absurd hpad (symbol_ne_pad hr)
  | case4 a b c rest ih =>
      have ha := a.toNat_lt
      have hb := b.toNat_lt
      have hc := c.toNat_lt
      have hfirst : a.toNat / 4 * 4 + (a.toNat % 4 * 16 + b.toNat / 16) / 16 = a.toNat := by omega
      have hsecond : (a.toNat % 4 * 16 + b.toNat / 16) % 16 * 16 +
          (b.toNat % 16 * 4 + c.toNat / 64) / 4 = b.toNat := by omega
      have hthird : (b.toNat % 16 * 4 + c.toNat / 64) % 4 * 64 + c.toNat % 64 = c.toNat := by omega
      have hpadding : padding (a :: b :: c :: rest) = padding rest := by
        simp only [padding, List.length_cons]
        congr 1
        omega
      have hgroup := decodeChars_group (p := a.toNat / 4)
        (q := a.toNat % 4 * 16 + b.toNat / 16) (r := b.toNat % 16 * 4 + c.toNat / 64)
        (s := c.toNat % 64) (by omega) (by omega) (by omega) (by omega) ih
      rw [hfirst, hsecond, hthird, UInt8.ofNat_toNat, UInt8.ofNat_toNat,
        UInt8.ofNat_toNat] at hgroup
      rw [hpadding]
      exact hgroup

/-- Four characters for each group of three bytes. -/
theorem length_encode (bytes : List UInt8) :
    (encode bytes).toList.length = 4 * ((bytes.length + 2) / 3) := by
  rw [encode, String.toList_ofList, List.length_append, List.length_map, length_sextets, padding,
    List.length_replicate]
  omega

/-- The characters of an encoding. -/
theorem mem_encode {bytes : List UInt8} {c : Char} (hc : c ∈ (encode bytes).toList) :
    c ∈ '=' :: alphabet := by
  rw [encode, String.toList_ofList] at hc
  rcases List.mem_append.mp hc with hc | hc
  · obtain ⟨n, hn, rfl⟩ := List.mem_map.mp hc
    have hlt : n < alphabet.length := sextets_lt n hn
    rw [symbol, List.getD_eq_getElem _ _ hlt]
    exact List.mem_cons_of_mem _ (List.getElem_mem hlt)
  · rw [List.eq_of_mem_replicate hc]
    exact List.mem_cons_self

end VorCommander.Text.Base64
