import Dinkster.Lib.Base64
import Mathlib.Data.List.DropRight

/-! The URL-safe alphabet without padding, read back canonically: a token stands for bytes only if
it is what those bytes are written as. -/
namespace Base64Url
open Base64

def toUrl (c : Char) : Char := if c = '+' then '-' else if c = '/' then '_' else c

def fromUrl (c : Char) : Char := if c = '-' then '+' else if c = '_' then '/' else c

def encode (data : List UInt8) : List Char := ((encodeBytes data).map toUrl).rdropWhile (· == '=')

/-- `token + "=" * (-len(token) % 4)` -/
def pad (token : List Char) : List Char :=
  token ++ List.replicate ((4 - token.length % 4) % 4) '='

def b64decode (padded : List Char) : Option (List UInt8) :=
  let standard := padded.map fromUrl
  if standard.all fun c => (sextet? c).isSome || c == '=' then decodeChars 0 0 0 standard else none

/-- `urlsafe_b64decode(token + "=" * (-len(token) % 4))`, which skips what it does not know. -/
def decodeLenient (token : List Char) : Option (List UInt8) :=
  if token.all fun c => c.toNat < 128 then decodeChars 0 0 0 ((pad token).map fromUrl) else none

def decode (token : List Char) : Option (List UInt8) :=
  if token = [] ∨ '=' ∈ token then none
  else
    match b64decode (pad token) with
    | none => none
    | some data => if encode data = token then some data else none

private theorem outside : sextet? '-' = none ∧ sextet? '_' = none ∧ sextet? '.' = none := by
  decide +kernel

private theorem fromUrl_toUrl {n : Nat} (small : n < 64) :
    fromUrl (toUrl (digit n)) = digit n ∧ toUrl (digit n) ≠ '=' ∧ toUrl (digit n) ≠ '.' := by
  obtain ⟨dash,underscore,dot⟩ := outside
  have other {c : Char} (unread : sextet? c = none) : digit n ≠ c := by
    rintro rfl
    rw [sextet?_digit small] at unread
    cases unread
  have dash := other dash
  have underscore := other underscore
  have dot := other dot
  have padding := digit_ne_pad small
  by_cases plus : digit n = '+'
  · simp [toUrl,fromUrl,plus]
  · by_cases slash : digit n = '/'
    · simp [toUrl,fromUrl,slash]
    · simp [toUrl,fromUrl,plus,slash,dash,underscore,dot,padding]

private theorem encodeBytes_shape (data : List UInt8) : ∃ body,
    encodeBytes data = body ++ List.replicate ((4 - body.length % 4) % 4) '=' ∧
      (∀ c ∈ body, ∃ n < 64, c = digit n) ∧ (body = [] → data = []) := by
  induction data using encodeBytes.induct with
  | case1 => exact ⟨[],rfl,by simp,by simp⟩
  | case2 a =>
    have range := a.toNat_lt
    refine ⟨[digit (a.toNat / 4),digit (a.toNat % 4 * 16)],rfl,?_,by simp⟩
    simp only [List.forall_mem_cons]
    exact ⟨⟨_,by omega,rfl⟩,⟨_,by omega,rfl⟩,by simp⟩
  | case3 a b =>
    have rangeA := a.toNat_lt
    have rangeB := b.toNat_lt
    refine ⟨[digit (a.toNat / 4),digit (a.toNat % 4 * 16 + b.toNat / 16),
      digit (b.toNat % 16 * 4)],rfl,?_,by simp⟩
    simp only [List.forall_mem_cons]
    exact ⟨⟨_,by omega,rfl⟩,⟨_,by omega,rfl⟩,⟨_,by omega,rfl⟩,by simp⟩
  | case4 a b c rest ih =>
    obtain ⟨body,shape,digits,-⟩ := ih
    have rangeA := a.toNat_lt
    have rangeB := b.toNat_lt
    have rangeC := c.toNat_lt
    refine ⟨digit (a.toNat / 4) :: digit (a.toNat % 4 * 16 + b.toNat / 16) ::
      digit (b.toNat % 16 * 4 + c.toNat / 64) :: digit (c.toNat % 64) :: body,?_,?_,by simp⟩
    · have same : (4 - (body.length + 1 + 1 + 1 + 1) % 4) % 4 = (4 - body.length % 4) % 4 := by
        omega
      rw [encodeBytes,shape]
      simp only [List.length_cons,same,List.cons_append]
    · simp only [List.forall_mem_cons]
      exact ⟨⟨_,by omega,rfl⟩,⟨_,by omega,rfl⟩,⟨_,by omega,rfl⟩,⟨_,by omega,rfl⟩,digits⟩

private theorem strip {body : List Char} (plain : ∀ c ∈ body, c ≠ '=') (n : Nat) :
    (body ++ List.replicate n '=').rdropWhile (· == '=') = body := by
  have stays : body.reverse.dropWhile (· == '=') = body.reverse := by
    cases last : body.reverse with
    | nil => rfl
    | cons c rest =>
      have inside : c ∈ body := List.mem_reverse.mp (last ▸ List.mem_cons_self)
      exact List.dropWhile_cons_of_neg (by simpa using plain c inside)
  rw [List.rdropWhile,List.reverse_append,List.reverse_replicate,List.dropWhile_append_of_pos,stays,
    List.reverse_reverse]
  intro c inside
  simp [List.eq_of_mem_replicate inside]

private theorem encode_shape (data : List UInt8) : ∃ body, encode data = body.map toUrl ∧
    encodeBytes data = body ++ List.replicate ((4 - body.length % 4) % 4) '=' ∧
      (∀ c ∈ body, ∃ n < 64, c = digit n) ∧ (body = [] → data = []) := by
  obtain ⟨body,shape,digits,empty⟩ := encodeBytes_shape data
  refine ⟨body,?_,shape,digits,empty⟩
  have plain : ∀ c ∈ body.map toUrl, c ≠ '=' := by
    intro c inside
    obtain ⟨d,held,rfl⟩ := List.mem_map.mp inside
    obtain ⟨n,small,rfl⟩ := digits d held
    exact (fromUrl_toUrl small).2.1
  rw [encode,shape,List.map_append,List.map_replicate]
  exact strip plain _

theorem encode_plain (data : List UInt8) : ∀ c ∈ encode data, c ≠ '=' ∧ c ≠ '.' := by
  obtain ⟨body,written,-,digits,-⟩ := encode_shape data
  intro c inside
  rw [written] at inside
  obtain ⟨d,held,rfl⟩ := List.mem_map.mp inside
  obtain ⟨n,small,rfl⟩ := digits d held
  exact (fromUrl_toUrl small).2

theorem pad_encode (data : List UInt8) : (pad (encode data)).map fromUrl = encodeBytes data := by
  obtain ⟨body,written,shape,digits,-⟩ := encode_shape data
  have back : body.map (fromUrl ∘ toUrl) = body := by
    conv_rhs => rw [← List.map_id body]
    refine List.map_congr_left fun c inside => ?_
    obtain ⟨n,small,rfl⟩ := digits c inside
    exact (fromUrl_toUrl small).1
  rw [pad,written,List.map_append,List.map_map,List.map_replicate,List.length_map,back,shape]
  rfl

private theorem toUrl_ascii {c : Char} (ascii : c.toNat < 128) : (toUrl c).toNat < 128 := by
  unfold toUrl
  split
  · decide
  · split
    · decide
    · exact ascii

theorem decodeLenient_encode (data : List UInt8) : decodeLenient (encode data) = some data := by
  have ascii : (encode data).all (fun c => c.toNat < 128) = true := by
    obtain ⟨body,written,-,digits,-⟩ := encode_shape data
    refine List.all_eq_true.mpr fun c inside => ?_
    rw [written] at inside
    obtain ⟨d,held,rfl⟩ := List.mem_map.mp inside
    obtain ⟨n,small,rfl⟩ := digits d held
    exact decide_eq_true (toUrl_ascii (digit_ascii small))
  rw [decodeLenient,if_pos ascii,pad_encode,decodeChars_encodeBytes]

theorem decode_encode {data : List UInt8} (some_data : data ≠ []) :
    decode (encode data) = some data := by
  obtain ⟨body,written,shape,digits,empty⟩ := encode_shape data
  have standard := pad_encode data
  have valid : ((encodeBytes data).all fun c => (sextet? c).isSome || c == '=') = true := by
    refine List.all_eq_true.mpr fun c inside => ?_
    rw [shape] at inside
    obtain inside | padding := List.mem_append.mp inside
    · obtain ⟨n,small,rfl⟩ := digits c inside
      simp [sextet?_digit small]
    · simp [List.eq_of_mem_replicate padding]
  have read : b64decode (pad (encode data)) = some data := by
    simp only [b64decode,standard,valid,if_true,decodeChars_encodeBytes]
  have token : ¬ (encode data = [] ∨ '=' ∈ encode data) := by
    rintro (nothing | padding)
    · rw [written,List.map_eq_nil_iff] at nothing
      exact some_data (empty nothing)
    · exact (encode_plain data '=' padding).1 rfl
  rw [decode,if_neg token,read]
  exact if_pos rfl

end Base64Url
