import Mathlib.Data.List.Basic
import Mathlib.Tactic.IntervalCases

/-! JSON values and their text as `json.dumps` writes it: ASCII only, with the two
separators as a parameter. Objects list their members in the order in which they
are written. The text determines the value: every value's text is read back in
front of anything that cannot continue a number. -/
namespace Json

def isNumberChar (c : Char) : Bool :=
  c.isDigit || ['-','+','.','e','E','N','a','I','n','f','i','t','y'].contains c

structure FloatText where
  first : Char
  rest : List Char
  starts : first.isDigit || ['-','N','I'].contains first
  numeric : ∀ c ∈ rest, isNumberChar c
  marked : ∃ c ∈ first :: rest, c.isDigit = false ∧ c ≠ '-'
  deriving DecidableEq

/-- Neither `NaN` nor an infinity. -/
def FloatText.finite (t : FloatText) : Bool :=
  t.first.isDigit || (t.first == '-' && t.rest.head? != some 'I')

inductive Value
  | null
  | bool (b : Bool)
  | int (n : Int)
  | float (text : FloatText)
  | str (s : String)
  | arr (items : List Value)
  | obj (members : List (String × Value))

structure Style where
  item : List Char
  key : List Char
  item_starts : item.head? = some ','
  key_starts : key.head? = some ':'

def Style.compact : Style := ⟨[','],[':'],rfl,rfl⟩

def Style.spaced : Style := ⟨[',',' '],[':',' '],rfl,rfl⟩

def intText : Int → List Char
  | .ofNat n => Nat.toDigits 10 n
  | .negSucc n => '-' :: Nat.toDigits 10 (n + 1)

/-- One UTF-16 unit, as `\\uXXXX`. -/
def unit (n : Nat) : List Char :=
  ['\\','u',(n / 4096 % 16).digitChar,(n / 256 % 16).digitChar,(n / 16 % 16).digitChar,
    (n % 16).digitChar]

def escape (c : Char) : List Char :=
  if c = '"' then ['\\','"']
  else if c = '\\' then ['\\','\\']
  else if c = '\n' then ['\\','n']
  else if c = '\r' then ['\\','r']
  else if c = '\t' then ['\\','t']
  else if c.toNat = 12 then ['\\','f']
  else if c.toNat = 8 then ['\\','b']
  else if 32 ≤ c.toNat ∧ c.toNat ≤ 126 then [c]
  else if c.toNat < 65536 then unit c.toNat
  else unit (55296 + (c.toNat - 65536) / 1024) ++ unit (56320 + (c.toNat - 65536) % 1024)

def escapes : List Char → List Char
  | [] => []
  | c :: cs => escape c ++ escapes cs

def strText (s : String) : List Char := '"' :: (escapes s.toList ++ ['"'])

mutual

def text (style : Style) : Value → List Char
  | .null => ['n','u','l','l']
  | .bool true => ['t','r','u','e']
  | .bool false => ['f','a','l','s','e']
  | .int n => intText n
  | .float t => t.first :: t.rest
  | .str s => strText s
  | .arr [] => ['[',']']
  | .arr (v :: vs) => '[' :: (text style v ++ (itemsText style vs ++ [']']))
  | .obj [] => ['{','}']
  | .obj ((k,v) :: ms) =>
    '{' :: (strText k ++ (style.key ++ (text style v ++ (membersText style ms ++ ['}']))))

def itemsText (style : Style) : List Value → List Char
  | [] => []
  | v :: vs => style.item ++ (text style v ++ itemsText style vs)

def membersText (style : Style) : List (String × Value) → List Char
  | [] => []
  | (k,v) :: ms =>
    style.item ++ (strText k ++ (style.key ++ (text style v ++ membersText style ms)))

end

/-- `json.dumps` -/
def dumps (style : Style) (v : Value) : String := String.ofList (text style v)

def hexValue (c : Char) : Nat :=
  if c.isDigit then c.toNat - 48 else c.toNat - 87

theorem hexValue_digitChar (n : Nat) (bound : n < 16) : hexValue n.digitChar = n := by
  interval_cases n <;> rfl

def readUnit : List Char → Option (Nat × List Char)
  | '\\' :: 'u' :: a :: b :: c :: d :: rest =>
    some (hexValue a * 4096 + hexValue b * 256 + hexValue c * 16 + hexValue d,rest)
  | _ => none

theorem readUnit_unit (n : Nat) (bound : n < 65536) (rest : List Char) :
    readUnit (unit n ++ rest) = some (n,rest) := by
  simp only [unit,List.cons_append,List.nil_append,readUnit,Option.some.injEq,Prod.mk.injEq,
    and_true]
  rw [hexValue_digitChar _ (Nat.mod_lt _ (by omega)),hexValue_digitChar _ (Nat.mod_lt _ (by omega)),
    hexValue_digitChar _ (Nat.mod_lt _ (by omega)),hexValue_digitChar _ (Nat.mod_lt _ (by omega))]
  omega

def readCode : List Char → Option (Nat × List Char)
  | '\\' :: '"' :: rest => some (34,rest)
  | '\\' :: '\\' :: rest => some (92,rest)
  | '\\' :: 'n' :: rest => some (10,rest)
  | '\\' :: 'r' :: rest => some (13,rest)
  | '\\' :: 't' :: rest => some (9,rest)
  | '\\' :: 'f' :: rest => some (12,rest)
  | '\\' :: 'b' :: rest => some (8,rest)
  | '\\' :: 'u' :: rest =>
    match readUnit ('\\' :: 'u' :: rest) with
    | none => none
    | some (high,rest) =>
      if 55296 ≤ high ∧ high < 56320 then
        match readUnit rest with
        | none => none
        | some (low,rest) => some (65536 + (high - 55296) * 1024 + (low - 56320),rest)
      else some (high,rest)
  | '"' :: _ => none
  | c :: rest => some (c.toNat,rest)
  | [] => none

private theorem readCode_unit (n : Nat) (rest : List Char) :
    readCode (unit n ++ rest) =
      match readUnit (unit n ++ rest) with
      | none => none
      | some (high,rest) =>
        if 55296 ≤ high ∧ high < 56320 then
          match readUnit rest with
          | none => none
          | some (low,rest) => some (65536 + (high - 55296) * 1024 + (low - 56320),rest)
        else some (high,rest) := by
  simp only [unit,List.cons_append,List.nil_append,readCode]

private theorem readCode_plain (c : Char) (rest : List Char) (quote : c ≠ '"') (slash : c ≠ '\\') :
    readCode (c :: rest) = some (c.toNat,rest) := by
  rw [readCode.eq_10 c rest]
  all_goals intros; simp_all

theorem readCode_escape (c : Char) (rest : List Char) :
    readCode (escape c ++ rest) = some (c.toNat,rest) := by
  have valid := c.valid
  have bound : c.toNat < 55296 ∨ 57343 < c.toNat ∧ c.toNat < 1114112 := valid
  unfold escape
  split
  case isTrue quote => subst quote; rfl
  case isFalse quote =>
  split
  case isTrue slash => subst slash; rfl
  case isFalse slash =>
  split
  case isTrue new => subst new; rfl
  case isFalse =>
  split
  case isTrue ret => subst ret; rfl
  case isFalse =>
  split
  case isTrue tab => subst tab; rfl
  case isFalse =>
  split
  case isTrue feed => rw [feed]; rfl
  case isFalse =>
  split
  case isTrue back => rw [back]; rfl
  case isFalse =>
  split
  case isTrue plain => exact readCode_plain c rest quote slash
  case isFalse =>
  split
  case isTrue small =>
    rw [readCode_unit,readUnit_unit _ small]
    have single : ¬ (55296 ≤ c.toNat ∧ c.toNat < 56320) := by omega
    simp only [single,if_false]
  case isFalse large =>
    rw [List.append_assoc,readCode_unit,readUnit_unit _ (by omega)]
    have pair : 55296 ≤ 55296 + (c.toNat - 65536) / 1024 ∧
        55296 + (c.toNat - 65536) / 1024 < 56320 := by omega
    simp only [pair,and_self,if_true]
    rw [readUnit_unit _ (by omega)]
    have whole : 65536 + (55296 + (c.toNat - 65536) / 1024 - 55296) * 1024 +
        (56320 + (c.toNat - 65536) % 1024 - 56320) = c.toNat := by omega
    simp only [whole]

theorem escapes_splits : ∀ (s s' : List Char) (x y : List Char),
    escapes s ++ '"' :: x = escapes s' ++ '"' :: y → s = s' ∧ x = y
  | [],[],_,_,same => ⟨rfl,(List.cons.inj same).2⟩
  | [],c :: cs,x,y,same => by
    have read := congrArg readCode same
    rw [escapes,escapes,List.append_assoc,readCode_escape] at read
    cases read
  | c :: cs,[],x,y,same => by
    have read := congrArg readCode same
    rw [escapes,escapes,List.append_assoc,readCode_escape] at read
    cases read
  | c :: cs,c' :: cs',x,y,same => by
    have read := congrArg readCode same
    rw [escapes,escapes,List.append_assoc,List.append_assoc,readCode_escape,
      readCode_escape] at read
    obtain ⟨head,tail⟩ := Prod.mk.inj (Option.some.inj read)
    obtain ⟨rest,final⟩ := escapes_splits cs cs' x y tail
    exact ⟨by rw [Char.toNat_inj.mp head,rest],final⟩

theorem strText_splits (s s' : String) (x y : List Char)
    (same : strText s ++ x = strText s' ++ y) : s = s' ∧ x = y := by
  simp only [strText,List.cons_append,List.append_assoc,List.nil_append,List.cons.injEq,
    true_and] at same
  obtain ⟨chars,rest⟩ := escapes_splits _ _ _ _ same
  exact ⟨String.toList_inj.mp chars,rest⟩

/-- What follows a value in a document: never a character of a number. -/
def Ends (rest : List Char) : Prop := ∀ c, rest.head? = some c → isNumberChar c = false

theorem numeric_splits : ∀ (s s' x y : List Char), (∀ c ∈ s, isNumberChar c) →
    (∀ c ∈ s', isNumberChar c) → Ends x → Ends y → s ++ x = s' ++ y → s = s' ∧ x = y
  | [],[],_,_,_,_,_,_,same => ⟨rfl,same⟩
  | [],c :: cs,x,y,_,numeric,ends,_,same => by
    have stop := ends c (by rw [show x = c :: (cs ++ y) from same]; rfl)
    rw [numeric c List.mem_cons_self] at stop
    cases stop
  | c :: cs,[],x,y,numeric,_,_,ends,same => by
    have stop := ends c (by rw [show y = c :: (cs ++ x) from same.symm]; rfl)
    rw [numeric c List.mem_cons_self] at stop
    cases stop
  | c :: cs,c' :: cs',x,y,left,right,endsx,endsy,same => by
    obtain ⟨head,tail⟩ := List.cons.inj same
    obtain ⟨rest,final⟩ := numeric_splits cs cs' x y
      (fun d inside => left d (List.mem_cons_of_mem _ inside))
      (fun d inside => right d (List.mem_cons_of_mem _ inside)) endsx endsy tail
    exact ⟨by rw [head,rest],final⟩

private theorem digits_isDigit (n : Nat) : ∀ c ∈ Nat.toDigits 10 n, c.isDigit := fun _ inside =>
  Nat.isDigit_of_mem_toDigits (by omega) (by omega) inside

theorem digits_injective {n m : Nat} (same : Nat.toDigits 10 n = Nat.toDigits 10 m) : n = m := by
  have read := congrArg (fun digits => Nat.ofDigitChars 10 digits 0) same
  simpa only [Nat.ofDigitChars_ten_toDigits] using read

theorem intText_chars (n : Int) : ∀ c ∈ intText n, c.isDigit ∨ c = '-' := by
  intro c inside
  cases n with
  | ofNat n => exact .inl (digits_isDigit n c inside)
  | negSucc n =>
    rcases List.mem_cons.mp inside with sign | inside
    · exact .inr sign
    · exact .inl (digits_isDigit _ c inside)

theorem intText_injective {n m : Int} (same : intText n = intText m) : n = m := by
  have sign : ∀ k l : Nat, Nat.toDigits 10 k ≠ '-' :: Nat.toDigits 10 l := by
    intro k l equal
    have digit := digits_isDigit k '-' (by rw [equal]; exact List.mem_cons_self)
    exact absurd digit (by decide)
  cases n with
  | ofNat n =>
    cases m with
    | ofNat m => rw [digits_injective same]
    | negSucc m => exact absurd same (sign n (m + 1))
  | negSucc n =>
    cases m with
    | ofNat m => exact absurd same.symm (sign m (n + 1))
    | negSucc m =>
      have digits := digits_injective (List.cons.inj same).2
      rw [Nat.succ.inj digits]

theorem intText_numeric (n : Int) : ∀ c ∈ intText n, isNumberChar c := by
  intro c inside
  rcases intText_chars n c inside with digit | rfl
  · simp only [isNumberChar,digit,Bool.true_or]
  · rfl

theorem FloatText.chars_numeric (t : FloatText) : ∀ c ∈ t.first :: t.rest, isNumberChar c := by
  intro c inside
  rcases List.mem_cons.mp inside with rfl | inside
  · have starts := t.starts
    simp only [isNumberChar,Bool.or_eq_true,List.contains_eq_mem,decide_eq_true_eq] at starts ⊢
    grind
  · exact t.numeric c inside

theorem FloatText.not_intText (t : FloatText) (n : Int) : t.first :: t.rest ≠ intText n := by
  intro same
  obtain ⟨c,inside,digit,sign⟩ := t.marked
  rcases intText_chars n c (same ▸ inside) with chars | chars
  · rw [digit] at chars
    cases chars
  · exact sign chars

/-- What the first character of a text says about the value. -/
inductive Shape
  | null | true | false | number | str | arr | obj | close
  deriving DecidableEq

def shapeOf (c : Char) : Shape :=
  if c = 'n' then .null
  else if c = 't' then .true
  else if c = 'f' then .false
  else if c = '"' then .str
  else if c = '[' then .arr
  else if c = '{' then .obj
  else if c = ']' then .close
  else .number

def Value.shape : Value → Shape
  | .null => .null
  | .bool true => .true
  | .bool false => .false
  | .int _ => .number
  | .float _ => .number
  | .str _ => .str
  | .arr _ => .arr
  | .obj _ => .obj

private theorem digit_shape (c : Char) (digit : c.isDigit) : shapeOf c = .number := by
  have other : ∀ d : Char, d.isDigit = false → c ≠ d := by
    intro d plain same
    rw [same,plain] at digit
    cases digit
  simp only [shapeOf,other 'n' rfl,other 't' rfl,other 'f' rfl,other '"' rfl,other '[' rfl,
    other '{' rfl,other ']' rfl,if_false]

theorem text_head (style : Style) (v : Value) :
    (text style v).head?.map shapeOf = some v.shape := by
  cases v with
  | null => rfl
  | bool b => cases b <;> rfl
  | int n =>
    have digits : ∀ k, (Nat.toDigits 10 k).head?.map shapeOf = some .number := by
      intro k
      rcases chars : Nat.toDigits 10 k with _ | ⟨c,cs⟩
      · exact absurd chars Nat.toDigits_ne_nil
      · have digit := digits_isDigit k c (by rw [chars]; exact List.mem_cons_self)
        simp only [List.head?_cons,Option.map_some,digit_shape c digit]
    cases n with
    | ofNat k => exact digits k
    | negSucc k => rfl
  | float t =>
    have starts := t.starts
    simp only [text,List.head?_cons,Option.map_some,Value.shape,Option.some.injEq]
    simp only [Bool.or_eq_true,List.contains_eq_mem,decide_eq_true_eq,List.mem_cons,
      List.not_mem_nil,or_false] at starts
    rcases starts with digit | minus | nan | infinity
    · exact digit_shape _ digit
    · rw [minus]; rfl
    · rw [nan]; rfl
    · rw [infinity]; rfl
  | str s => rfl
  | arr items => cases items <;> rfl
  | obj members => cases members <;> rfl

theorem text_ne_close (style : Style) (v : Value) (x y : List Char) :
    text style v ++ x ≠ ']' :: y := by
  intro same
  have shape := text_head style v
  rcases chars : text style v with _ | ⟨c,cs⟩
  · rw [chars] at shape
    cases shape
  · rw [chars] at same shape
    rw [(List.cons.inj same).1] at shape
    have closed : Shape.close = v.shape := Option.some.inj shape
    cases v with
    | bool b => cases b <;> cases closed
    | null | int | float | str | arr | obj => cases closed

theorem shape_eq {style : Style} {v v' : Value} {x y : List Char}
    (same : text style v ++ x = text style v' ++ y) : v.shape = v'.shape := by
  have left := text_head style v
  have right := text_head style v'
  rcases hv : text style v with _ | ⟨c,cs⟩
  · rw [hv] at left
    cases left
  · rcases hv' : text style v' with _ | ⟨d,ds⟩
    · rw [hv'] at right
      cases right
    · rw [hv,hv'] at same
      rw [hv] at left
      rw [hv'] at right
      have head := (List.cons.inj same).1
      rw [head] at left
      exact Option.some.inj (left.symm.trans right)

private theorem ends_cons (c : Char) (rest : List Char) (stop : isNumberChar c = false) :
    Ends (c :: rest) := by
  intro d head
  rw [← Option.some.inj head]
  exact stop

private theorem ends_head {s : List Char} {c : Char} (rest : List Char) (head : s.head? = some c)
    (stop : isNumberChar c = false) : Ends (s ++ rest) := by
  rcases s with _ | ⟨d,ds⟩
  · cases head
  · rw [← Option.some.inj head] at stop
    exact ends_cons d (ds ++ rest) stop

private theorem itemsText_ends (style : Style) (vs : List Value) (x : List Char) :
    Ends (itemsText style vs ++ ']' :: x) := by
  cases vs with
  | nil => exact ends_cons _ _ rfl
  | cons v vs =>
    rw [itemsText,List.append_assoc]
    exact ends_head _ style.item_starts rfl

private theorem membersText_ends (style : Style) (ms : List (String × Value)) (x : List Char) :
    Ends (membersText style ms ++ '}' :: x) := by
  cases ms with
  | nil => exact ends_cons _ _ rfl
  | cons m ms =>
    obtain ⟨k,v⟩ := m
    rw [membersText,List.append_assoc]
    exact ends_head _ style.item_starts rfl

private theorem style_head {s : List Char} {c d : Char} {x y : List Char} (head : s.head? = some c)
    (other : c ≠ d) : s ++ x ≠ d :: y := by
  rcases s with _ | ⟨e,es⟩
  · cases head
  · intro same
    exact other ((Option.some.inj head).symm.trans (List.cons.inj same).1)

mutual

theorem text_splits (style : Style) : ∀ (v v' : Value) (x y : List Char), Ends x → Ends y →
    text style v ++ x = text style v' ++ y → v = v' ∧ x = y
  | .null,v',x,y,endsx,endsy,same => by
    have shape := shape_eq same
    cases v' with
    | null => exact ⟨rfl,List.append_cancel_left same⟩
    | bool b => cases b <;> cases shape
    | int | float | str | arr | obj => cases shape
  | .bool b,v',x,y,endsx,endsy,same => by
    have shape := shape_eq same
    cases v' with
    | bool b' =>
      have bits : b = b' := by cases b <;> cases b' <;> first | rfl | cases shape
      subst bits
      exact ⟨rfl,List.append_cancel_left same⟩
    | null | int | float | str | arr | obj => cases b <;> cases shape
  | .int n,v',x,y,endsx,endsy,same => by
    have shape := shape_eq same
    cases v' with
    | int n' =>
      obtain ⟨chars,rest⟩ := numeric_splits _ _ x y (intText_numeric n) (intText_numeric n')
        endsx endsy same
      exact ⟨by rw [intText_injective chars],rest⟩
    | float t' =>
      obtain ⟨chars,-⟩ := numeric_splits _ _ x y (intText_numeric n) t'.chars_numeric
        endsx endsy same
      exact absurd chars.symm (t'.not_intText n)
    | bool b => cases b <;> cases shape
    | null | str | arr | obj => cases shape
  | .float t,v',x,y,endsx,endsy,same => by
    have shape := shape_eq same
    cases v' with
    | int n' =>
      obtain ⟨chars,-⟩ := numeric_splits _ _ x y t.chars_numeric (intText_numeric n')
        endsx endsy same
      exact absurd chars (t.not_intText n')
    | float t' =>
      obtain ⟨chars,rest⟩ := numeric_splits _ _ x y t.chars_numeric t'.chars_numeric
        endsx endsy same
      obtain ⟨first,others⟩ := List.cons.inj chars
      have whole : t = t' := by
        cases t
        cases t'
        cases first
        cases others
        rfl
      exact ⟨by rw [whole],rest⟩
    | bool b => cases b <;> cases shape
    | null | str | arr | obj => cases shape
  | .str s,v',x,y,endsx,endsy,same => by
    have shape := shape_eq same
    cases v' with
    | str s' =>
      obtain ⟨chars,rest⟩ := strText_splits s s' x y same
      exact ⟨by rw [chars],rest⟩
    | bool b => cases b <;> cases shape
    | null | int | float | arr | obj => cases shape
  | .arr items,v',x,y,endsx,endsy,same => by
    have shape := shape_eq same
    cases v' with
    | arr items' =>
      obtain ⟨same,rest⟩ := arr_splits style items items' x y same
      exact ⟨by rw [same],rest⟩
    | bool b => cases b <;> cases shape
    | null | int | float | str | obj => cases shape
  | .obj members,v',x,y,endsx,endsy,same => by
    have shape := shape_eq same
    cases v' with
    | obj members' =>
      obtain ⟨same,rest⟩ := obj_splits style members members' x y same
      exact ⟨by rw [same],rest⟩
    | bool b => cases b <;> cases shape
    | null | int | float | str | arr => cases shape

theorem arr_splits (style : Style) : ∀ (vs vs' : List Value) (x y : List Char),
    text style (.arr vs) ++ x = text style (.arr vs') ++ y → vs = vs' ∧ x = y
  | [],[],x,y,same => ⟨rfl,List.append_cancel_left same⟩
  | [],v' :: vs',x,y,same => by
    simp only [text,List.cons_append,List.append_assoc,List.nil_append,List.cons.injEq,
      true_and] at same
    exact absurd same.symm (text_ne_close style v' _ _)
  | v :: vs,[],x,y,same => by
    simp only [text,List.cons_append,List.append_assoc,List.nil_append,List.cons.injEq,
      true_and] at same
    exact absurd same (text_ne_close style v _ _)
  | v :: vs,v' :: vs',x,y,same => by
    simp only [text,List.cons_append,List.append_assoc,List.nil_append,List.cons.injEq,
      true_and] at same
    obtain ⟨head,tail⟩ := text_splits style v v' _ _ (itemsText_ends style vs x)
      (itemsText_ends style vs' y) same
    obtain ⟨rest,final⟩ := items_splits style vs vs' x y tail
    exact ⟨by rw [head,rest],final⟩

theorem items_splits (style : Style) : ∀ (vs vs' : List Value) (x y : List Char),
    itemsText style vs ++ ']' :: x = itemsText style vs' ++ ']' :: y → vs = vs' ∧ x = y
  | [],[],x,y,same => ⟨rfl,(List.cons.inj same).2⟩
  | [],v' :: vs',x,y,same => by
    rw [itemsText,itemsText,List.append_assoc] at same
    exact absurd same.symm (style_head style.item_starts (by decide))
  | v :: vs,[],x,y,same => by
    rw [itemsText,itemsText,List.append_assoc] at same
    exact absurd same (style_head style.item_starts (by decide))
  | v :: vs,v' :: vs',x,y,same => by
    simp only [itemsText,List.append_assoc] at same
    obtain ⟨head,tail⟩ := text_splits style v v' _ _ (itemsText_ends style vs x)
      (itemsText_ends style vs' y) (List.append_cancel_left same)
    obtain ⟨rest,final⟩ := items_splits style vs vs' x y tail
    exact ⟨by rw [head,rest],final⟩

theorem obj_splits (style : Style) : ∀ (ms ms' : List (String × Value)) (x y : List Char),
    text style (.obj ms) ++ x = text style (.obj ms') ++ y → ms = ms' ∧ x = y
  | [],[],x,y,same => ⟨rfl,List.append_cancel_left same⟩
  | [],(k',v') :: ms',x,y,same => by
    simp [text,strText] at same
  | (k,v) :: ms,[],x,y,same => by
    simp [text,strText] at same
  | (k,v) :: ms,(k',v') :: ms',x,y,same => by
    simp only [text,List.cons_append,List.append_assoc,List.nil_append,List.cons.injEq,
      true_and] at same
    obtain ⟨name,tail⟩ := strText_splits k k' _ _ same
    obtain ⟨head,tail⟩ := text_splits style v v' _ _ (membersText_ends style ms x)
      (membersText_ends style ms' y) (List.append_cancel_left tail)
    obtain ⟨rest,final⟩ := members_splits style ms ms' x y tail
    exact ⟨by rw [name,head,rest],final⟩

theorem members_splits (style : Style) : ∀ (ms ms' : List (String × Value)) (x y : List Char),
    membersText style ms ++ '}' :: x = membersText style ms' ++ '}' :: y → ms = ms' ∧ x = y
  | [],[],x,y,same => ⟨rfl,(List.cons.inj same).2⟩
  | [],(k',v') :: ms',x,y,same => by
    rw [membersText,membersText,List.append_assoc] at same
    exact absurd same.symm (style_head style.item_starts (by decide))
  | (k,v) :: ms,[],x,y,same => by
    rw [membersText,membersText,List.append_assoc] at same
    exact absurd same (style_head style.item_starts (by decide))
  | (k,v) :: ms,(k',v') :: ms',x,y,same => by
    simp only [membersText,List.append_assoc] at same
    obtain ⟨name,tail⟩ := strText_splits k k' _ _ (List.append_cancel_left same)
    obtain ⟨head,tail⟩ := text_splits style v v' _ _ (membersText_ends style ms x)
      (membersText_ends style ms' y) (List.append_cancel_left tail)
    obtain ⟨rest,final⟩ := members_splits style ms ms' x y tail
    exact ⟨by rw [name,head,rest],final⟩

end

theorem dumps_injective (style : Style) {v v' : Value} (same : dumps style v = dumps style v') :
    v = v' := by
  have chars : text style v = text style v' := String.ofList_injective same
  have ends : Ends [] := fun _ head => by cases head
  exact (text_splits style v v' [] [] ends ends (by rw [chars])).1

end Json
