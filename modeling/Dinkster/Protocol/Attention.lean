import Dinkster.Lib.Json
import Mathlib

/-! The attention route token that a selected executor carries, and its canonical
text. Members of a JSON object are listed in the order `sort_keys` gives them. -/
namespace Dinkster
open Json

inductive AttentionRole
  | unet | flux | vae | clip | t5 | qwen
  deriving DecidableEq

def AttentionRole.value : AttentionRole → String
  | .unet => "unet"
  | .flux => "flux"
  | .vae => "vae"
  | .clip => "clip"
  | .t5 => "t5"
  | .qwen => "qwen"

def attentionRoles : List AttentionRole := [.unet,.flux,.vae,.clip,.t5,.qwen]

inductive AttentionPolicy
  | auto | sdpa | flash | xformers | sage | sage3 | sol | comfyKitchenInt8
  deriving DecidableEq

def AttentionPolicy.value : AttentionPolicy → String
  | .auto => "auto"
  | .sdpa => "sdpa"
  | .flash => "flash"
  | .xformers => "xformers"
  | .sage => "sage"
  | .sage3 => "sage3"
  | .sol => "sol"
  | .comfyKitchenInt8 => "comfy_kitchen_int8"

theorem AttentionRole.value_injective : Function.Injective AttentionRole.value := by
  intro a b same
  cases a <;> cases b <;> first | rfl | exact absurd same (by decide)

theorem AttentionPolicy.value_injective : Function.Injective AttentionPolicy.value := by
  intro a b same
  cases a <;> cases b <;> first | rfl | exact absurd same (by decide)

structure AttentionRoute where
  role : AttentionRole
  primary : String
  fallback : Option String
  primary_present : primary ≠ ""
  fallback_present : fallback ≠ some ""

/-- The token's fields with the checks of its constructor that do not look at the
single routes' policies. -/
structure AttentionRouteToken where
  version : Nat
  routes : List AttentionRoute
  providerVersions : List (String × String)
  adapterContractRevision : String
  deviceKind : String
  deviceSm : Option Nat
  sdpaTorchRuntime : String
  requestedPolicy : AttentionPolicy
  requestedRolePolicies : List (AttentionRole × AttentionPolicy)
  known_version : version ∈ [1,2,3,4]
  canonical_routes : routes.map (·.role) = attentionRoles
  sorted_providers : providerVersions.Pairwise fun a b => toLex a < toLex b
  named_providers : ∀ p ∈ providerVersions, p.1 ≠ "" ∧ p.2 ≠ ""
  named : adapterContractRevision ≠ "" ∧ deviceKind ≠ "" ∧ sdpaTorchRuntime ≠ ""
  first_plain : version = 1 → requestedRolePolicies = []
  second_overrides : version = 2 → requestedRolePolicies ≠ []
  fourth_automatic : version = 4 → requestedPolicy = .auto

def optionalText : Option String → Json.Value
  | none => .null
  | some s => .str s

def optionalInt : Option Nat → Json.Value
  | none => .null
  | some n => .int n

def AttentionRoute.toWire (route : AttentionRoute) : Json.Value :=
  .obj [("fallback",optionalText route.fallback),("primary",.str route.primary),
    ("role",.str route.role.value)]

/-- `attention_route_token_to_wire` -/
def AttentionRouteToken.toWire (token : AttentionRouteToken) : Json.Value :=
  .obj ([("adapterContractRevision",.str token.adapterContractRevision),
      ("deviceKind",.str token.deviceKind),
      ("deviceSm",optionalInt token.deviceSm),
      ("providerVersions",.arr (token.providerVersions.map fun p => .arr [.str p.1,.str p.2])),
      ("requestedPolicy",.str token.requestedPolicy.value)] ++
    (if token.version ≥ 2 then
      [("requestedRolePolicies",.arr (token.requestedRolePolicies.map fun p =>
        .arr [.str p.1.value,.str p.2.value]))]
    else []) ++
    [("routes",.arr (token.routes.map AttentionRoute.toWire)),
      ("sdpaTorchRuntime",.str token.sdpaTorchRuntime),
      ("version",.int token.version)])

/-- `canonical_attention_route_token_bytes`, before its ASCII text is encoded -/
def canonicalAttentionRouteTokenText (token : AttentionRouteToken) : String :=
  dumps .compact token.toWire

end Dinkster
