import Mathlib.Data.List.Basic

/-! Base64 of bytes. The decoder is the lenient one: characters outside the alphabet are skipped,
and what follows a complete padding is not read. -/
namespace Base64

def alphabet : List Char :=
  "ABCDEFGHIJKLMNOPQRSTUVWXYZabcdefghijklmnopqrstuvwxyz0123456789+/".toList

def digit (n : Nat) : Char := alphabet.getD n '='

def sextet? (c : Char) : Option Nat :=
  if alphabet.idxOf c < 64 then some (alphabet.idxOf c) else none

set_option maxRecDepth 2000 in
private theorem alphabet_chars : alphabet =
    ['A','B','C','D','E','F','G','H','I','J','K','L','M','N','O','P','Q','R','S','T','U','V','W',
      'X','Y','Z','a','b','c','d','e','f','g','h','i','j','k','l','m','n','o','p','q','r','s','t',
      'u','v','w','x','y','z','0','1','2','3','4','5','6','7','8','9','+','/'] :=
  String.toList_ofList

private theorem length_alphabet : alphabet.length = 64 := by
  rw [alphabet_chars]
  rfl

private theorem nodup_alphabet : alphabet.Nodup := by
  rw [alphabet_chars]
  decide +kernel

private theorem alphabet_plain : ∀ c ∈ alphabet, c ≠ '=' ∧ c.toNat < 128 := by
  have plain : (alphabet.all fun c => decide (c ≠ '=' ∧ c.toNat < 128)) = true := by
    rw [alphabet_chars]
    rfl
  exact fun c inside => of_decide_eq_true (List.all_eq_true.mp plain c inside)

private theorem digit_eq {n : Nat} (small : n < alphabet.length) : digit n = alphabet[n] := by
  rw [digit,List.getD_eq_getElem?_getD,List.getElem?_eq_getElem small,Option.getD_some]

theorem sextet?_digit {n : Nat} (small : n < 64) : sextet? (digit n) = some n := by
  rw [← length_alphabet] at small
  rw [digit_eq small,sextet?,nodup_alphabet.idxOf_getElem,if_pos (length_alphabet ▸ small)]

private theorem digit_plain {n : Nat} (small : n < 64) : digit n ≠ '=' ∧ (digit n).toNat < 128 := by
  rw [← length_alphabet] at small
  rw [digit_eq small]
  exact alphabet_plain _ (List.getElem_mem small)

theorem digit_ne_pad {n : Nat} (small : n < 64) : digit n ≠ '=' := (digit_plain small).1

theorem digit_ascii {n : Nat} (small : n < 64) : (digit n).toNat < 128 := (digit_plain small).2

def encodeBytes : List UInt8 → List Char
  | [] => []
  | [a] => [digit (a.toNat / 4),digit (a.toNat % 4 * 16),'=','=']
  | [a,b] =>
    [digit (a.toNat / 4),digit (a.toNat % 4 * 16 + b.toNat / 16),digit (b.toNat % 16 * 4),'=']
  | a :: b :: c :: rest =>
    digit (a.toNat / 4) :: digit (a.toNat % 4 * 16 + b.toNat / 16) ::
      digit (b.toNat % 16 * 4 + c.toNat / 64) :: digit (c.toNat % 64) :: encodeBytes rest

/-- `quad` is the place within the group of four, `left` the bits that wait for the next digit. -/
def decodeChars (quad left pads : Nat) : List Char → Option (List UInt8)
  | [] => if quad = 0 then some [] else none
  | c :: rest =>
    if c = '=' then
      if quad < 2 then decodeChars quad left pads rest
      else if 4 ≤ quad + (pads + 1) then some []
      else decodeChars quad left (pads + 1) rest
    else match sextet? c with
      | none => decodeChars quad left pads rest
      | some n =>
        if quad = 0 then decodeChars 1 n 0 rest
        else if quad = 1 then
          (decodeChars 2 (n % 16) 0 rest).map (UInt8.ofNat (left * 4 + n / 16) :: ·)
        else if quad = 2 then
          (decodeChars 3 (n % 4) 0 rest).map (UInt8.ofNat (left * 16 + n / 4) :: ·)
        else (decodeChars 0 0 0 rest).map (UInt8.ofNat (left * 64 + n) :: ·)

def decode (s : String) : Option ByteArray :=
  if s.toList.all (fun c => c.toNat < 128) then
    (decodeChars 0 0 0 s.toList).map fun bytes => ⟨bytes.toArray⟩
  else none

/-- Whole groups of four with nothing outside the alphabet and at most two characters of padding at
the end. -/
def wellFormed (chars : List Char) : Bool :=
  let body := chars.reverse.dropWhile (· == '=')
  chars.length % 4 == 0 && chars.length ≤ body.length + 2 && body.all fun c => (sextet? c).isSome

def decodeStrict (s : String) : Option ByteArray :=
  if wellFormed s.toList then decode s else none

theorem decodeChars_digit {n : Nat} (small : n < 64) (quad left pads : Nat) (rest : List Char) :
    decodeChars quad left pads (digit n :: rest) =
      if quad = 0 then decodeChars 1 n 0 rest
      else if quad = 1 then
        (decodeChars 2 (n % 16) 0 rest).map (UInt8.ofNat (left * 4 + n / 16) :: ·)
      else if quad = 2 then
        (decodeChars 3 (n % 4) 0 rest).map (UInt8.ofNat (left * 16 + n / 4) :: ·)
      else (decodeChars 0 0 0 rest).map (UInt8.ofNat (left * 64 + n) :: ·) := by
  rw [decodeChars,if_neg (digit_ne_pad small),sextet?_digit small]

private theorem byte {n : Nat} {a : UInt8} (same : n = a.toNat) : UInt8.ofNat n = a := by
  rw [same,UInt8.ofNat_toNat]

theorem decodeChars_encodeBytes (bytes : List UInt8) :
    decodeChars 0 0 0 (encodeBytes bytes) = some bytes := by
  induction bytes using encodeBytes.induct with
  | case1 => rfl
  | case2 a =>
    have range := a.toNat_lt
    rw [encodeBytes,decodeChars_digit (by omega),if_pos rfl,decodeChars_digit (by omega),
      if_neg (by omega),if_pos rfl,byte (a := a) (by omega)]
    rfl
  | case3 a b =>
    have rangeA := a.toNat_lt
    have rangeB := b.toNat_lt
    rw [encodeBytes,decodeChars_digit (by omega),if_pos rfl,decodeChars_digit (by omega),
      if_neg (by omega),if_pos rfl,decodeChars_digit (by omega),if_neg (by omega),
      if_neg (by omega),if_pos rfl,byte (a := a) (by omega),byte (a := b) (by omega)]
    rfl
  | case4 a b c rest ih =>
    have rangeA := a.toNat_lt
    have rangeB := b.toNat_lt
    have rangeC := c.toNat_lt
    rw [encodeBytes,decodeChars_digit (by omega),if_pos rfl,decodeChars_digit (by omega),
      if_neg (by omega),if_pos rfl,decodeChars_digit (by omega),if_neg (by omega),
      if_neg (by omega),if_pos rfl,decodeChars_digit (by omega),if_neg (by omega),
      if_neg (by omega),if_neg (by omega),byte (a := a) (by omega),byte (a := b) (by omega),
      byte (a := c) (by omega),ih]
    rfl

end Base64
