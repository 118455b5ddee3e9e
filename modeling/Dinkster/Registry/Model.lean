import Dinkster.Lib.JsonSortKeys
import Mathlib.Order.Defs.LinearOrder

/-! Release versions, artifact digests and the canonical text of records. Versions are read by the
`packaging` library, which orders them by a key: two spellings may have one key. -/
namespace Dinkster.Registry
open Json

/-- What `packaging.version` makes of a text: its `Version`, the normalized spelling, whether it
has a local segment and the key by which versions compare. -/
structure Packaging (V K : Type) where
  parse : String → Option V
  text : V → String
  isLocal : V → Bool
  key : V → K

section

variable {V K : Type} (packaging : Packaging V K)

/-- `validate_version` -/
def validateVersion (text : String) : Option String :=
  match packaging.parse text with
  | none => some "must be a valid PEP 440 version"
  | some version =>
    if packaging.isLocal version then some "must not contain a local PEP 440 version segment"
    else if packaging.text version ≠ text then
      some ("must use normalized PEP 440 form '" ++ packaging.text version ++ "'")
    else none

/-- `Version.parse`, without the text of its error. -/
def parseVersion (text : String) : Option V :=
  if validateVersion packaging text = none then packaging.parse text else none

theorem parseVersion_isSome {packaging : Packaging V K} {text : String} :
    (parseVersion packaging text).isSome ↔ validateVersion packaging text = none := by
  unfold parseVersion
  split
  · rename_i valid
    refine iff_of_true ?_ valid
    unfold validateVersion at valid
    cases parsed : packaging.parse text with
    | none => simp [parsed] at valid
    | some version => rfl
  · rename_i invalid
    exact iff_of_false nofun invalid

theorem parseVersion_text {packaging : Packaging V K} {text : String} {version : V}
    (parsed : parseVersion packaging text = some version) : packaging.text version = text := by
  unfold parseVersion at parsed
  split at parsed
  · rename_i valid
    simp only [validateVersion,parsed] at valid
    split at valid
    · contradiction
    · split at valid
      · contradiction
      · rename_i same
        exact not_not.mp same
  · contradiction

end

def artifactDigestPrefix : String := "blake3:"

def isHex (c : Char) : Bool := "0123456789abcdef".toList.contains c

/-- `validate_artifact_digest` -/
def validateArtifactDigest (text : String) : Option String :=
  let prefixed := artifactDigestPrefix.toList.isPrefixOf text.toList
  let value := if prefixed then text.toList.drop artifactDigestPrefix.length else text.toList
  if !prefixed || value.length ≠ 64 || value.any (!isHex ·) then
    some "must be 'blake3:<64 lowercase hex>' computed over the artifact bytes"
  else none

/-- `canonical_json` -/
def canonicalJson (v : Value) : String := String.ofList (sortedText v)

end Dinkster.Registry
