import Dinkster.Lib.Dict
import Dinkster.Lib.JsonObject

/-! Reading JSON text as `json.loads` does, with the two hooks that callers set, and the text that
the writers lay out. Every value is read back from its text, whichever white space the layout puts
between its parts. -/
namespace Json

def isSpace (c : Char) : Bool := c == ' ' || c == '\t' || c == '\n' || c == '\r'

def skip (cs : List Char) : List Char := cs.dropWhile isSpace

/-- What `object_pairs_hook` makes of an object's pairs, and which numbers `parse_float` and
`parse_constant` let through. -/
structure Hooks where
  pairs : Object → Option Object
  number : FloatText → Bool

/-- Without hooks a later pair overwrites an earlier one of the same name. -/
def Hooks.plain : Hooks := ⟨fun pairs => some (Dict.ofList pairs).entries,fun _ => true⟩

def hexDigit? (c : Char) : Option Nat :=
  if c.isDigit then some (c.toNat - 48)
  else if 'a' ≤ c ∧ c ≤ 'f' then some (c.toNat - 87)
  else if 'A' ≤ c ∧ c ≤ 'F' then some (c.toNat - 55)
  else none

def readHex : List Char → Option (Nat × List Char)
  | a :: b :: c :: d :: rest => do
    let a ← hexDigit? a
    let b ← hexDigit? b
    let c ← hexDigit? c
    let d ← hexDigit? d
    some (a * 4096 + b * 256 + c * 16 + d,rest)
  | _ => none

def charOf? (n : Nat) : Option Char := if n.isValidChar then some (Char.ofNat n) else none

/-- What follows `\u`. A surrogate without its partner is not a character here. -/
def readUnicode (cs : List Char) : Option (Char × List Char) :=
  match readHex cs with
  | none => none
  | some (high,'\\' :: 'u' :: rest) =>
    if 55296 ≤ high ∧ high < 56320 then
      match readHex rest with
      | none => none
      | some (low,rest) =>
        if 56320 ≤ low ∧ low < 57344 then
          (charOf? (65536 + (high - 55296) * 1024 + (low - 56320))).map (·,rest)
        else none
    else (charOf? high).map (·,'\\' :: 'u' :: rest)
  | some (unit,rest) => (charOf? unit).map (·,rest)

def readChar : List Char → Option (Char × List Char)
  | [] => none
  | '"' :: _ => none
  | '\\' :: '"' :: rest => some ('"',rest)
  | '\\' :: '\\' :: rest => some ('\\',rest)
  | '\\' :: '/' :: rest => some ('/',rest)
  | '\\' :: 'b' :: rest => some (Char.ofNat 8,rest)
  | '\\' :: 'f' :: rest => some (Char.ofNat 12,rest)
  | '\\' :: 'n' :: rest => some ('\n',rest)
  | '\\' :: 'r' :: rest => some ('\r',rest)
  | '\\' :: 't' :: rest => some ('\t',rest)
  | '\\' :: 'u' :: rest => readUnicode rest
  | '\\' :: _ => none
  | c :: rest => if c.toNat < 32 then none else some (c,rest)

def readChars : Nat → List Char → Option (List Char × List Char)
  | 0, _ => none
  | fuel + 1, cs =>
    match readChar cs with
    | some (c,rest) => (readChars fuel rest).map fun (chars,rest) => (c :: chars,rest)
    | none =>
      match cs with
      | '"' :: rest => some ([],rest)
      | _ => none

def readString (cs : List Char) : Option (String × List Char) :=
  (readChars (cs.length + 1) cs).map fun (chars,rest) => (String.ofList chars,rest)

/-- An integer's text is its value's own text; `-0` is the one other form. -/
def readInt (cs : List Char) : Option Int :=
  let n : Int := match cs with
    | '-' :: digits => -(Nat.ofDigitChars 10 digits 0 : Int)
    | digits => Nat.ofDigitChars 10 digits 0
  if intText n = cs ∨ cs = ['-','0'] then some n else none

def isDigits (cs : List Char) : Bool := !cs.isEmpty && cs.all Char.isDigit

/-- `([eE][-+]?[0-9]+)?` -/
def isExponent : List Char → Bool
  | [] => true
  | e :: cs =>
    (e == 'e' || e == 'E') && isDigits (match cs with
      | '-' :: digits => digits
      | '+' :: digits => digits
      | digits => digits)

/-- `(\.[0-9]+)?([eE][-+]?[0-9]+)?` -/
def isFraction : List Char → Bool
  | '.' :: cs => isDigits (cs.takeWhile Char.isDigit) && isExponent (cs.dropWhile Char.isDigit)
  | cs => isExponent cs

def isDecimal (cs : List Char) : Bool :=
  let unsigned := match cs with
    | '-' :: rest => rest
    | rest => rest
  let whole := unsigned.takeWhile Char.isDigit
  isDigits whole && (whole == ['0'] || whole.head? != some '0') &&
    isFraction (unsigned.dropWhile Char.isDigit)

def FloatText.chars (t : FloatText) : List Char := t.first :: t.rest

/-- `NaN`, `Infinity` and `-Infinity` -/
def FloatText.isConstant (t : FloatText) : Bool :=
  t.chars == "NaN".toList || t.chars == "Infinity".toList || t.chars == "-Infinity".toList

def floatText? : List Char → Option FloatText
  | [] => none
  | first :: rest =>
    if facts : (first.isDigit || ['-','N','I'].contains first) = true ∧
        (∀ c ∈ rest, isNumberChar c) ∧ ∃ c ∈ first :: rest, c.isDigit = false ∧ c ≠ '-' then
      some ⟨first,rest,facts.1,facts.2.1,facts.2.2⟩
    else none

def readNumber (hooks : Hooks) (cs : List Char) : Option Value :=
  match readInt cs with
  | some n => some (.int n)
  | none =>
    match floatText? cs with
    | none => none
    | some t =>
      if (isDecimal t.chars || t.isConstant) && hooks.number t then some (.float t) else none

mutual

def readValue (hooks : Hooks) : Nat → List Char → Option (Value × List Char)
  | 0, _ => none
  | fuel + 1, cs =>
    match cs with
    | '"' :: rest => (readString rest).map fun (s,rest) => (.str s,rest)
    | '[' :: rest =>
      match skip rest with
      | ']' :: rest => some (.arr [],rest)
      | rest => (readItems hooks fuel rest).map fun (vs,rest) => (.arr vs,rest)
    | '{' :: rest =>
      match skip rest with
      | '}' :: rest => (hooks.pairs []).map fun ms => (.obj ms,rest)
      | rest =>
        (readMembers hooks fuel rest).bind fun (ms,rest) =>
          (hooks.pairs ms).map fun ms => (.obj ms,rest)
    | 'n' :: 'u' :: 'l' :: 'l' :: rest => some (.null,rest)
    | 't' :: 'r' :: 'u' :: 'e' :: rest => some (.bool true,rest)
    | 'f' :: 'a' :: 'l' :: 's' :: 'e' :: rest => some (.bool false,rest)
    | cs => (readNumber hooks (cs.takeWhile isNumberChar)).map (·,cs.dropWhile isNumberChar)

def readItems (hooks : Hooks) : Nat → List Char → Option (List Value × List Char)
  | 0, _ => none
  | fuel + 1, cs =>
    match readValue hooks fuel cs with
    | none => none
    | some (v,rest) =>
      match skip rest with
      | ']' :: rest => some ([v],rest)
      | ',' :: rest => (readItems hooks fuel (skip rest)).map fun (vs,rest) => (v :: vs,rest)
      | _ => none

def readMembers (hooks : Hooks) : Nat → List Char → Option (Object × List Char)
  | 0, _ => none
  | fuel + 1, cs =>
    match cs with
    | '"' :: rest =>
      match readString rest with
      | none => none
      | some (k,rest) =>
        match skip rest with
        | ':' :: rest =>
          match readValue hooks fuel (skip rest) with
          | none => none
          | some (v,rest) =>
            match skip rest with
            | '}' :: rest => some ([(k,v)],rest)
            | ',' :: rest =>
              (readMembers hooks fuel (skip rest)).map fun (ms,rest) => ((k,v) :: ms,rest)
            | _ => none
        | _ => none
    | _ => none

end

/-- `json.loads` of a text -/
def loads (hooks : Hooks) (cs : List Char) : Option Value :=
  match readValue hooks (cs.length + 1) (skip cs) with
  | some (v,rest) => if skip rest = [] then some v else none
  | none => none

private theorem hexDigit?_digitChar {n : Nat} (bound : n < 16) :
    hexDigit? n.digitChar = some n := by
  interval_cases n <;> rfl

private theorem readHex_digits {n : Nat} (bound : n < 65536) (rest : List Char) :
    readHex ((n / 4096 % 16).digitChar :: (n / 256 % 16).digitChar :: (n / 16 % 16).digitChar ::
      (n % 16).digitChar :: rest) = some (n,rest) := by
  simp only [readHex,hexDigit?_digitChar (Nat.mod_lt _ (by omega : 0 < 16)),Option.bind_eq_bind,
    Option.bind_some,Option.some.injEq,Prod.mk.injEq,and_true]
  omega

private theorem charOf?_toNat (c : Char) : charOf? c.toNat = some c := by
  have valid : c.toNat.isValidChar := c.valid
  rw [charOf?,if_pos valid,Char.ofNat_toNat]

private theorem readChar_unit (n : Nat) (rest : List Char) :
    readChar (unit n ++ rest) = readUnicode ((n / 4096 % 16).digitChar ::
      (n / 256 % 16).digitChar :: (n / 16 % 16).digitChar :: (n % 16).digitChar :: rest) := rfl

private theorem readUnicode_single {n : Nat} (bound : n < 65536)
    (alone : ¬ (55296 ≤ n ∧ n < 56320)) (rest : List Char) :
    readUnicode ((n / 4096 % 16).digitChar :: (n / 256 % 16).digitChar ::
      (n / 16 % 16).digitChar :: (n % 16).digitChar :: rest) = (charOf? n).map (·,rest) := by
  unfold readUnicode
  rw [readHex_digits bound]
  split
  · rename_i none_read
    cases none_read
  · rename_i high rest' read
    obtain ⟨rfl,rfl⟩ := Prod.mk.inj (Option.some.inj read)
    rw [if_neg alone]
  · rename_i read
    obtain ⟨rfl,rfl⟩ := Prod.mk.inj (Option.some.inj read)
    rfl

private theorem readUnicode_pair {high low : Nat} (first : 55296 ≤ high ∧ high < 56320)
    (second : 56320 ≤ low ∧ low < 57344) (rest : List Char) :
    readUnicode ((high / 4096 % 16).digitChar :: (high / 256 % 16).digitChar ::
      (high / 16 % 16).digitChar :: (high % 16).digitChar :: (unit low ++ rest)) =
      (charOf? (65536 + (high - 55296) * 1024 + (low - 56320))).map (·,rest) := by
  unfold readUnicode
  rw [readHex_digits (by omega)]
  simp only [unit,List.cons_append,List.nil_append]
  rw [if_pos first,readHex_digits (by omega)]
  simp only [second,and_self,if_true]

theorem readChar_escape (c : Char) (rest : List Char) :
    readChar (escape c ++ rest) = some (c,rest) := by
  have valid := c.valid
  have bound : c.toNat < 55296 ∨ 57343 < c.toNat ∧ c.toNat < 1114112 := valid
  unfold escape
  split
  case isTrue quote => subst quote; rfl
  case isFalse quote =>
  split
  case isTrue slash => subst slash; rfl
  case isFalse slash =>
  split
  case isTrue new => subst new; rfl
  case isFalse =>
  split
  case isTrue ret => subst ret; rfl
  case isFalse =>
  split
  case isTrue tab => subst tab; rfl
  case isFalse =>
  split
  case isTrue feed => rw [← Char.ofNat_toNat c,feed]; rfl
  case isFalse =>
  split
  case isTrue back => rw [← Char.ofNat_toNat c,back]; rfl
  case isFalse =>
  split
  case isTrue plain =>
    have above : ¬ c.toNat < 32 := by omega
    simp only [List.cons_append,List.nil_append]
    unfold readChar
    split <;> simp_all
  case isFalse =>
  split
  case isTrue small =>
    rw [readChar_unit,readUnicode_single small (by omega),charOf?_toNat]
    rfl
  case isFalse large =>
    rw [List.append_assoc,readChar_unit,readUnicode_pair (by omega) (by omega)]
    have whole : 65536 + (55296 + (c.toNat - 65536) / 1024 - 55296) * 1024 +
        (56320 + (c.toNat - 65536) % 1024 - 56320) = c.toNat := by omega
    rw [whole,charOf?_toNat]
    rfl

private theorem readChars_some {fuel : Nat} {c : Char} {cs rest : List Char}
    (read : readChar cs = some (c,rest)) : readChars (fuel + 1) cs =
      (readChars fuel rest).map fun (chars,rest) => (c :: chars,rest) := by
  conv_lhs => unfold readChars
  rw [read]

private theorem readChars_escapes (chars : List Char) : ∀ (fuel : Nat) (rest : List Char),
    chars.length < fuel → readChars fuel (escapes chars ++ '"' :: rest) = some (chars,rest) := by
  induction chars with
  | nil =>
    intro fuel rest enough
    obtain ⟨fuel,rfl⟩ := Nat.exists_eq_succ_of_ne_zero (Nat.ne_of_gt enough)
    rfl
  | cons c chars ih =>
    intro fuel rest enough
    obtain ⟨fuel,rfl⟩ := Nat.exists_eq_succ_of_ne_zero (Nat.ne_of_gt (Nat.zero_lt_of_lt enough))
    rw [escapes,List.append_assoc,readChars_some (readChar_escape c _)]
    simp only [ih fuel rest (by simpa using enough),Option.map_some]

private theorem length_escapes (chars : List Char) : chars.length ≤ (escapes chars).length := by
  induction chars with
  | nil => exact Nat.le_refl _
  | cons c chars ih =>
    have one : 1 ≤ (escape c).length := by
      unfold escape
      repeat' split
      all_goals simp [unit]
    simp only [escapes,List.length_append,List.length_cons]
    omega

theorem readString_strText (s : String) (rest : List Char) :
    readString (escapes s.toList ++ '"' :: rest) = some (s,rest) := by
  rw [readString,readChars_escapes]
  · simp
  · have covered := length_escapes s.toList
    simp only [List.length_append]
    omega

theorem readInt_intText (n : Int) : readInt (intText n) = some n := by
  have digits (m : Nat) : ∀ rest, Nat.toDigits 10 m ≠ '-' :: rest := by
    intro rest same
    have digit := Nat.isDigit_of_mem_toDigits (by omega) (by omega)
      (same ▸ List.mem_cons_self : '-' ∈ Nat.toDigits 10 m)
    exact absurd digit (by decide)
  cases n with
  | ofNat m =>
    have value : (match Nat.toDigits 10 m with
        | '-' :: digits => -(Nat.ofDigitChars 10 digits 0 : Int)
        | digits => Nat.ofDigitChars 10 digits 0) = (m : Int) := by
      split
      · rename_i rest same
        exact absurd same (digits m rest)
      · rw [Nat.ofDigitChars_ten_toDigits]
    simp [readInt,intText,value]
  | negSucc m =>
    have value : -((m + 1 : Nat) : Int) = .negSucc m := rfl
    simp only [readInt,intText,Nat.ofDigitChars_ten_toDigits,value,true_or,if_true]

theorem readNumber_int (hooks : Hooks) (n : Int) :
    readNumber hooks (intText n) = some (.int n) := by
  rw [readNumber,readInt_intText]

/-- The numbers that a reader with these hooks takes. -/
def FloatText.Readable (hooks : Hooks) (t : FloatText) : Prop :=
  (isDecimal t.chars || t.isConstant) && hooks.number t

private theorem readInt_float (t : FloatText) : readInt t.chars = none := by
  unfold readInt
  rw [if_neg]
  rintro (same | same)
  · exact t.not_intText _ same.symm
  · obtain ⟨c,inside,digit,sign⟩ := t.marked
    rw [show t.first :: t.rest = ['-','0'] from same] at inside
    simp only [List.mem_cons,List.not_mem_nil,or_false] at inside
    obtain rfl | rfl := inside
    · exact sign rfl
    · exact absurd digit (by decide)

theorem readNumber_float {hooks : Hooks} {t : FloatText} (readable : t.Readable hooks) :
    readNumber hooks t.chars = some (.float t) := by
  have same : floatText? t.chars = some t := by
    rw [FloatText.chars,floatText?,dif_pos ⟨t.starts,t.numeric,t.marked⟩]
  rw [readNumber,readInt_float,same]
  exact if_pos readable

/-- The white space that a writer puts before a container's first item, after its commas, after a
name's colon and before the closing bracket, by nesting depth. -/
structure Layout where
  first : Nat → List Char
  next : Nat → List Char
  colon : List Char
  last : Nat → List Char
  first_blank : ∀ d, ∀ c ∈ first d, isSpace c
  next_blank : ∀ d, ∀ c ∈ next d, isSpace c
  colon_blank : ∀ c ∈ colon, isSpace c
  last_blank : ∀ d, ∀ c ∈ last d, isSpace c

def Layout.compact : Layout :=
  ⟨fun _ => [],fun _ => [],[],fun _ => [],by simp,by simp,by simp,by simp⟩

/-- The separators `", "` and `": "`. -/
def Layout.spaced : Layout :=
  ⟨fun _ => [],fun _ => [' '],[' '],fun _ => [],by simp,by simp [isSpace],by simp [isSpace],by simp⟩

mutual

def render (l : Layout) (d : Nat) : Value → List Char
  | .null => ['n','u','l','l']
  | .bool true => ['t','r','u','e']
  | .bool false => ['f','a','l','s','e']
  | .int n => intText n
  | .float t => t.chars
  | .str s => strText s
  | .arr [] => ['[',']']
  | .arr (v :: vs) =>
    '[' :: (l.first (d + 1) ++ (render l (d + 1) v ++ renderItems l (d + 1) vs ++
      (l.last d ++ [']'])))
  | .obj [] => ['{','}']
  | .obj ((k,v) :: ms) =>
    '{' :: (l.first (d + 1) ++ (strText k ++ (':' :: (l.colon ++ render l (d + 1) v)) ++
      renderMembers l (d + 1) ms ++ (l.last d ++ ['}'])))

def renderItems (l : Layout) (d : Nat) : List Value → List Char
  | [] => []
  | v :: vs => ',' :: (l.next d ++ (render l d v ++ renderItems l d vs))

def renderMembers (l : Layout) (d : Nat) : List (String × Value) → List Char
  | [] => []
  | (k,v) :: ms =>
    ',' :: (l.next d ++ (strText k ++ (':' :: (l.colon ++ render l d v)) ++ renderMembers l d ms))

end

structure Layout.Writes (l : Layout) (style : Style) : Prop where
  item : ∀ d, style.item = ',' :: l.next d
  key : style.key = ':' :: l.colon
  first : ∀ d, l.first d = []
  last : ∀ d, l.last d = []

section Writes

variable {l : Layout} {style : Style}

mutual

theorem text_render (writes : l.Writes style) (d : Nat) : ∀ v, text style v = render l d v
  | .null | .bool true | .bool false | .int _ | .float _ | .str _ | .arr [] | .obj [] => rfl
  | .arr (v :: vs) => by
    simp [text,render,text_render writes (d + 1) v,itemsText_render writes (d + 1) vs,
      writes.first,writes.last]
  | .obj ((k,v) :: ms) => by
    simp [text,render,text_render writes (d + 1) v,membersText_render writes (d + 1) ms,
      writes.first,writes.last,writes.key]

theorem itemsText_render (writes : l.Writes style) (d : Nat) :
    ∀ vs, itemsText style vs = renderItems l d vs
  | [] => rfl
  | v :: vs => by
    simp [itemsText,renderItems,text_render writes d v,itemsText_render writes d vs,writes.item d]

theorem membersText_render (writes : l.Writes style) (d : Nat) :
    ∀ ms, membersText style ms = renderMembers l d ms
  | [] => rfl
  | (k,v) :: ms => by
    simp [membersText,renderMembers,text_render writes d v,membersText_render writes d ms,
      writes.item d,writes.key]

end

end Writes

theorem text_compact (d : Nat) (v : Value) : text .compact v = render .compact d v :=
  text_render ⟨fun _ => rfl,rfl,fun _ => rfl,fun _ => rfl⟩ d v

theorem text_spaced (d : Nat) (v : Value) : text .spaced v = render .spaced d v :=
  text_render ⟨fun _ => rfl,rfl,fun _ => rfl,fun _ => rfl⟩ d v

mutual

/-- Every object is one that the hook leaves alone, and every number one that is read. -/
def Value.Readable (hooks : Hooks) : Value → Prop
  | .null | .bool _ | .int _ | .str _ => True
  | .float t => t.Readable hooks
  | .arr vs => ItemsReadable hooks vs
  | .obj ms => hooks.pairs ms = some ms ∧ MembersReadable hooks ms

def ItemsReadable (hooks : Hooks) : List Value → Prop
  | [] => True
  | v :: vs => v.Readable hooks ∧ ItemsReadable hooks vs

def MembersReadable (hooks : Hooks) : Object → Prop
  | [] => True
  | (_,v) :: ms => v.Readable hooks ∧ MembersReadable hooks ms

end

theorem membersReadable_iff {hooks : Hooks} {ms : Object} :
    MembersReadable hooks ms ↔ ∀ m ∈ ms, m.2.Readable hooks := by
  induction ms with
  | nil => simp [MembersReadable]
  | cons m rest ih => rw [MembersReadable,ih,List.forall_mem_cons]

theorem itemsReadable_iff {hooks : Hooks} {vs : List Value} :
    ItemsReadable hooks vs ↔ ∀ v ∈ vs, v.Readable hooks := by
  induction vs with
  | nil => simp [ItemsReadable]
  | cons v rest ih => rw [ItemsReadable,ih,List.forall_mem_cons]

theorem skip_blank {blank : List Char} (spaces : ∀ c ∈ blank, isSpace c) (rest : List Char) :
    skip (blank ++ rest) = skip rest := by
  rw [skip,List.dropWhile_append_of_pos spaces,skip]

theorem skip_char {c : Char} (solid : isSpace c = false) (rest : List Char) :
    skip (c :: rest) = c :: rest := by
  rw [skip,List.dropWhile_cons_of_neg (by simp [solid])]

variable {hooks : Hooks} {l : Layout}

private theorem starts_number {c : Char} (starts : c.isDigit || ['-','N','I'].contains c) :
    isSpace c = false ∧ c ≠ ']' ∧ c ≠ '"' ∧ c ≠ '[' ∧ c ≠ '{' ∧ c ≠ 'n' ∧ c ≠ 't' ∧ c ≠ 'f' := by
  rcases Bool.or_eq_true_iff.mp starts with digit | sign
  · have other (e : Char) (plain : e.isDigit = false) : c ≠ e := by
      rintro rfl
      rw [digit] at plain
      cases plain
    refine ⟨?_,other _ rfl,other _ rfl,other _ rfl,other _ rfl,other _ rfl,other _ rfl,other _ rfl⟩
    simp [isSpace,other ' ' rfl,other '\t' rfl,other '\n' rfl,other '\r' rfl]
  · simp only [List.contains_cons,List.contains_nil,Bool.or_false,Bool.or_eq_true,
      beq_iff_eq] at sign
    obtain rfl | rfl | rfl := sign <;> decide

private theorem intText_starts (n : Int) :
    ∃ c rest, intText n = c :: rest ∧ (c.isDigit || ['-','N','I'].contains c) := by
  cases written : intText n with
  | nil =>
    have value := readInt_intText n
    rw [written] at value
    simp [readInt,intText] at value
  | cons c rest =>
    refine ⟨c,rest,rfl,?_⟩
    obtain digit | rfl := intText_chars n c (written ▸ List.mem_cons_self)
    · rw [digit,Bool.true_or]
    · rfl

theorem render_starts (d : Nat) (v : Value) :
    ∃ c rest, render l d v = c :: rest ∧ isSpace c = false ∧ c ≠ ']' := by
  cases v with
  | null => exact ⟨_,_,rfl,rfl,by decide⟩
  | bool b => cases b <;> exact ⟨_,_,rfl,rfl,by decide⟩
  | int n =>
    obtain ⟨c,rest,written,starts⟩ := intText_starts n
    exact ⟨c,rest,written,(starts_number starts).1,(starts_number starts).2.1⟩
  | float t => exact ⟨_,_,rfl,(starts_number t.starts).1,(starts_number t.starts).2.1⟩
  | str s => exact ⟨_,_,rfl,rfl,by decide⟩
  | arr vs => cases vs <;> exact ⟨_,_,rfl,rfl,by decide⟩
  | obj ms =>
    cases ms with
    | nil => exact ⟨_,_,rfl,rfl,by decide⟩
    | cons m ms => exact ⟨_,_,rfl,rfl,by decide⟩

private theorem readValue_number {c : Char} (starts : c.isDigit || ['-','N','I'].contains c)
    (fuel : Nat) (rest : List Char) : readValue hooks (fuel + 1) (c :: rest) =
      (readNumber hooks ((c :: rest).takeWhile isNumberChar)).map
        (·,(c :: rest).dropWhile isNumberChar) := by
  obtain ⟨-,-,quote,bracket,brace,n,t,f⟩ := starts_number starts
  conv_lhs => unfold readValue
  split <;> simp_all

private theorem takeWhile_number {s rest : List Char} (numeric : ∀ c ∈ s, isNumberChar c)
    (ends : Ends rest) : (s ++ rest).takeWhile isNumberChar = s ∧
      (s ++ rest).dropWhile isNumberChar = rest := by
  rw [List.takeWhile_append_of_pos numeric,List.dropWhile_append_of_pos numeric]
  cases rest with
  | nil => simp
  | cons c rest => simp [ends c rfl]

private def afterItem (hooks : Hooks) (fuel : Nat) (cs : List Char) :
    Option (List Value × List Char) :=
  match skip cs with
  | ']' :: rest => some ([],rest)
  | ',' :: rest => readItems hooks fuel (skip rest)
  | _ => none

private theorem readItems_cons {fuel : Nat} {cs rest rest' : List Char} {v : Value}
    {vs : List Value} (item : readValue hooks fuel cs = some (v,rest))
    (others : afterItem hooks fuel rest = some (vs,rest')) :
    readItems hooks (fuel + 1) cs = some (v :: vs,rest') := by
  unfold afterItem at others
  rw [readItems,item]
  dsimp only
  split at others
  · simp_all
  · simp_all
  · cases others

private def readMember (hooks : Hooks) (fuel : Nat) :
    List Char → Option ((String × Value) × List Char)
  | '"' :: cs =>
    match readString cs with
    | none => none
    | some (k,rest) =>
      match skip rest with
      | ':' :: rest => (readValue hooks fuel (skip rest)).map fun (v,rest) => ((k,v),rest)
      | _ => none
  | _ => none

private def afterMember (hooks : Hooks) (fuel : Nat) (cs : List Char) :
    Option (Object × List Char) :=
  match skip cs with
  | '}' :: rest => some ([],rest)
  | ',' :: rest => readMembers hooks fuel (skip rest)
  | _ => none

private theorem readMembers_cons {fuel : Nat} {cs rest rest' : List Char} {m : String × Value}
    {ms : Object} (member : readMember hooks fuel cs = some (m,rest))
    (others : afterMember hooks fuel rest = some (ms,rest')) :
    readMembers hooks (fuel + 1) cs = some (m :: ms,rest') := by
  unfold readMember at member
  split at member
  case h_2 => cases member
  case h_1 cs =>
  split at member
  case h_1 => cases member
  case h_2 k tail named =>
  split at member
  case h_2 => cases member
  case h_1 tail colon =>
  obtain ⟨⟨v,behind⟩,value,same⟩ := Option.map_eq_some_iff.mp member
  obtain ⟨rfl,rfl⟩ := Prod.mk.inj same
  simp only [readMembers,named,colon,value]
  unfold afterMember at others
  split at others
  · simp_all
  · simp_all
  · cases others

private theorem readMember_written (k : String) {d fuel : Nat} {v : Value} {rest : List Char}
    (value : readValue hooks fuel (render l d v ++ rest) = some (v,rest)) :
    readMember hooks fuel (strText k ++ (':' :: (l.colon ++ (render l d v ++ rest)))) =
      some ((k,v),rest) := by
  obtain ⟨c,more,written,solid,-⟩ := render_starts (l := l) d v
  have opened : skip (l.colon ++ (render l d v ++ rest)) = render l d v ++ rest := by
    rw [skip_blank l.colon_blank,written,List.cons_append,skip_char solid]
  have named := readString_strText k (':' :: (l.colon ++ (render l d v ++ rest)))
  have colon : skip (':' :: (l.colon ++ (render l d v ++ rest))) =
      ':' :: (l.colon ++ (render l d v ++ rest)) := skip_char rfl _
  simp only [strText,List.cons_append,List.append_assoc,List.nil_append,readMember,named,colon,
    opened,value,Option.map_some]

private theorem blank_not_number {c : Char} (blank : isSpace c) : isNumberChar c = false := by
  simp only [isSpace,Bool.or_eq_true,beq_iff_eq] at blank
  obtain ((rfl | rfl) | rfl) | rfl := blank <;> rfl

private theorem close_ends {close : List Char} {bracket : Char} (rest : List Char)
    (blank : ∀ c ∈ close, isSpace c) (closes : isNumberChar bracket = false) :
    Ends (close ++ bracket :: rest) := by
  intro c first
  cases close with
  | nil => rw [← Option.some.inj first]; exact closes
  | cons e close =>
    rw [← Option.some.inj first]
    exact blank_not_number (blank e List.mem_cons_self)

private theorem items_end (vs : List Value) (d : Nat) (close rest : List Char)
    (blank : ∀ c ∈ close, isSpace c) : Ends (renderItems l d vs ++ (close ++ ']' :: rest)) := by
  cases vs with
  | nil => exact close_ends rest blank rfl
  | cons v vs =>
    intro c first
    rw [← Option.some.inj first]
    rfl

private theorem members_end (ms : Object) (d : Nat) (close rest : List Char)
    (blank : ∀ c ∈ close, isSpace c) : Ends (renderMembers l d ms ++ (close ++ '}' :: rest)) := by
  cases ms with
  | nil => exact close_ends rest blank rfl
  | cons m ms =>
    intro c first
    rw [← Option.some.inj first]
    rfl

mutual

theorem read_render : ∀ (v : Value) (d fuel : Nat) (rest : List Char), v.Readable hooks →
    Ends rest → (render l d v).length ≤ fuel →
    readValue hooks fuel (render l d v ++ rest) = some (v,rest)
  | v,d,0,rest,_,_,enough => by
    obtain ⟨c,tail,written,-⟩ := render_starts (l := l) d v
    rw [written] at enough
    simp at enough
  | .null,_,_ + 1,_,_,_,_ | .bool true,_,_ + 1,_,_,_,_ | .bool false,_,_ + 1,_,_,_,_
  | .arr [],_,_ + 1,_,_,_,_ => rfl
  | .int n,d,fuel + 1,rest,_,ends,_ => by
    obtain ⟨c,tail,written,starts⟩ := intText_starts n
    obtain ⟨run,behind⟩ := takeWhile_number (intText_numeric n) ends
    rw [render,written,List.cons_append,readValue_number starts,← List.cons_append,← written,run,
      behind,readNumber_int]
    rfl
  | .float t,d,fuel + 1,rest,readable,ends,_ => by
    obtain ⟨run,behind⟩ := takeWhile_number (s := t.chars) t.chars_numeric ends
    rw [render,FloatText.chars,List.cons_append,readValue_number t.starts,← List.cons_append,
      ← FloatText.chars,run,behind,readNumber_float readable]
    rfl
  | .str s,d,fuel + 1,rest,_,_,_ => by
    have body := readString_strText s rest
    simp [render,strText,readValue,body]
  | .obj [],d,fuel + 1,rest,readable,_,_ => by
    have same : hooks.pairs [] = some [] := readable.1
    have closed : skip ('}' :: rest) = '}' :: rest := skip_char rfl rest
    simp [render,readValue,closed,same]
  | .arr (v :: vs),d,fuel + 1,rest,readable,_,enough => by
    simp only [render,List.length_cons,List.length_append] at enough
    obtain ⟨fuel,rfl⟩ : ∃ less, fuel = less + 1 := ⟨fuel - 1,by omega⟩
    have tail := read_items vs (d + 1) fuel (l.last d) rest readable.2 (l.last_blank d) (by omega)
    have head := read_render v (d + 1) fuel (renderItems l (d + 1) vs ++ (l.last d ++ ']' :: rest))
      readable.1 (items_end vs _ _ _ (l.last_blank d)) (by omega)
    have items := readItems_cons head tail
    obtain ⟨c,more,written,solid,unclosed⟩ := render_starts (l := l) (d + 1) v
    have opened : skip (l.first (d + 1) ++ (render l (d + 1) v ++
        (renderItems l (d + 1) vs ++ (l.last d ++ ']' :: rest)))) =
        render l (d + 1) v ++ (renderItems l (d + 1) vs ++ (l.last d ++ ']' :: rest)) := by
      rw [skip_blank (l.first_blank _),written,List.cons_append,skip_char solid]
    rw [render]
    simp only [List.cons_append,List.append_assoc,List.nil_append]
    unfold readValue
    simp only [opened]
    rw [written] at items ⊢
    split
    · simp_all
    · rw [items]
      rfl
  | .obj ((k,v) :: ms),d,fuel + 1,rest,readable,_,enough => by
    simp only [render,List.length_cons,List.length_append] at enough
    obtain ⟨fuel,rfl⟩ : ∃ less, fuel = less + 1 := ⟨fuel - 1,by omega⟩
    have tail := read_members ms (d + 1) fuel (l.last d) rest readable.2.2 (l.last_blank d)
      (by omega)
    have value := read_render v (d + 1) fuel
      (renderMembers l (d + 1) ms ++ (l.last d ++ '}' :: rest)) readable.2.1
      (members_end ms _ _ _ (l.last_blank d)) (by omega)
    have members := readMembers_cons (readMember_written k value) tail
    have opened : skip (l.first (d + 1) ++ (strText k ++ (':' :: (l.colon ++ (render l (d + 1) v ++
        (renderMembers l (d + 1) ms ++ (l.last d ++ '}' :: rest))))))) =
        strText k ++ (':' :: (l.colon ++ (render l (d + 1) v ++
          (renderMembers l (d + 1) ms ++ (l.last d ++ '}' :: rest))))) := by
      rw [skip_blank (l.first_blank _),strText,List.cons_append,skip_char rfl]
    rw [render]
    simp only [List.cons_append,List.append_assoc,List.nil_append]
    unfold readValue
    simp only [opened]
    have kept : hooks.pairs ((k,v) :: ms) = some ((k,v) :: ms) := readable.1
    split
    · rename_i closed
      simp [strText] at closed
    · rw [members]
      simp [kept]

theorem read_items : ∀ (vs : List Value) (d fuel : Nat) (close rest : List Char),
    ItemsReadable hooks vs → (∀ c ∈ close, isSpace c) → (renderItems l d vs).length ≤ fuel →
    afterItem hooks fuel (renderItems l d vs ++ (close ++ ']' :: rest)) = some (vs,rest)
  | [],d,fuel,close,rest,_,blank,_ => by
    rw [renderItems,List.nil_append,afterItem,skip_blank blank,skip_char rfl]
    rfl
  | v :: vs,d,0,close,rest,_,_,enough => by simp [renderItems] at enough
  | v :: vs,d,fuel + 1,close,rest,readable,blank,enough => by
    simp only [renderItems,List.length_cons,List.length_append] at enough
    have tail := read_items vs d fuel close rest readable.2 blank (by omega)
    have head := read_render v d fuel (renderItems l d vs ++ (close ++ ']' :: rest))
      readable.1 (items_end vs _ _ _ blank) (by omega)
    obtain ⟨c,more,written,solid,-⟩ := render_starts (l := l) d v
    have opened : skip (l.next d ++ (render l d v ++
        (renderItems l d vs ++ (close ++ ']' :: rest)))) =
        render l d v ++ (renderItems l d vs ++ (close ++ ']' :: rest)) := by
      rw [skip_blank (l.next_blank d),written,List.cons_append,skip_char solid]
    simp only [renderItems,List.cons_append,List.append_assoc]
    rw [afterItem,skip_char rfl]
    change readItems hooks (fuel + 1) (skip _) = _
    rw [opened]
    exact readItems_cons head tail

theorem read_members : ∀ (ms : Object) (d fuel : Nat) (close rest : List Char),
    MembersReadable hooks ms → (∀ c ∈ close, isSpace c) → (renderMembers l d ms).length ≤ fuel →
    afterMember hooks fuel (renderMembers l d ms ++ (close ++ '}' :: rest)) = some (ms,rest)
  | [],d,fuel,close,rest,_,blank,_ => by
    rw [renderMembers,List.nil_append,afterMember,skip_blank blank,skip_char rfl]
    rfl
  | (k,v) :: ms,d,0,close,rest,_,_,enough => by simp [renderMembers] at enough
  | (k,v) :: ms,d,fuel + 1,close,rest,readable,blank,enough => by
    simp only [renderMembers,List.length_cons,List.length_append] at enough
    have tail := read_members ms d fuel close rest readable.2 blank (by omega)
    have value := read_render v d fuel (renderMembers l d ms ++ (close ++ '}' :: rest))
      readable.1 (members_end ms _ _ _ blank) (by omega)
    have opened : skip (l.next d ++ (strText k ++ (':' :: (l.colon ++ (render l d v ++
        (renderMembers l d ms ++ (close ++ '}' :: rest))))))) =
        strText k ++ (':' :: (l.colon ++ (render l d v ++
          (renderMembers l d ms ++ (close ++ '}' :: rest))))) := by
      rw [skip_blank (l.next_blank d),strText,List.cons_append,skip_char rfl]
    simp only [renderMembers,List.cons_append,List.append_assoc]
    rw [afterMember,skip_char rfl]
    change readMembers hooks (fuel + 1) (skip _) = _
    rw [opened]
    exact readMembers_cons (readMember_written k value) tail

end

theorem loads_render {v : Value} (readable : v.Readable hooks) :
    loads hooks (render l 0 v) = some v := by
  obtain ⟨c,rest,written,solid,-⟩ := render_starts (l := l) 0 v
  have read := read_render (l := l) v 0 ((render l 0 v).length + 1) [] readable (by simp [Ends])
    (Nat.le_succ _)
  have opened : skip (render l 0 v) = render l 0 v := by rw [written,skip_char solid]
  rw [List.append_nil] at read
  rw [loads,opened,read]
  rfl

theorem loads_compact {v : Value} (readable : v.Readable hooks) :
    loads hooks (text .compact v) = some v := by
  rw [text_compact 0,loads_render readable]

theorem loads_spaced {v : Value} (readable : v.Readable hooks) :
    loads hooks (text .spaced v) = some v := by
  rw [text_spaced 0,loads_render readable]

theorem plain_pairs {ms : Object} (distinct : (ms.map (·.1)).Nodup) :
    Hooks.plain.pairs ms = some ms :=
  congrArg some (Dict.entries_ofList distinct)

end Json
