import Mathlib.Data.Int.Notation
import Mathlib.Data.Nat.Notation

/-!
# Shared types and constants

The MAC types, the mailbox API versions and the error codes of the shared code.
-/

namespace Ixgbevf

/-- `enum ixgbe_mac_type`, in the order of the source. -/
inductive MacType where
  | unknown
  | mac82598EB
  | mac82599EB
  | mac82599Vf
  | macX540
  | macX540Vf
  | macX550
  | macX550EMx
  | macX550EMa
  | macX550Vf
  | macX550EMxVf
  | macX550EMaVf
  | macE610
  | macE610Vf
  deriving DecidableEq, Repr

/-- The numeric value of a MAC type, by which the source compares MAC types. -/
def MacType.value : MacType → ℕ
  | unknown => 0
  | mac82598EB => 1
  | mac82599EB => 2
  | mac82599Vf => 3
  | macX540 => 4
  | macX540Vf => 5
  | macX550 => 6
  | macX550EMx => 7
  | macX550EMa => 8
  | macX550Vf => 9
  | macX550EMxVf => 10
  | macX550EMaVf => 11
  | macE610 => 12
  | macE610Vf => 13

/-- `enum ixgbe_pfvf_api_rev`, in the order of the source. -/
inductive ApiVersion where
  | api10
  | api20
  | api11
  | api12
  | api13
  | api14
  | api15
  | api16
  | api17
  | unknown
  deriving DecidableEq, Repr

/-- The numeric value of an API version, by which the source compares versions. -/
def ApiVersion.value : ApiVersion → ℕ
  | api10 => 0
  | api20 => 1
  | api11 => 2
  | api12 => 3
  | api13 => 4
  | api14 => 5
  | api15 => 6
  | api16 => 7
  | api17 => 8
  | unknown => 9

/-! ### Error codes of the shared code -/

/-- `IXGBE_ERR_CONFIG`. -/
def errConfig : ℤ := -4

/-- `IXGBE_ERR_PARAM`. -/
def errParam : ℤ := -5

/-- `IXGBE_ERR_FEATURE_NOT_SUPPORTED`. -/
def errFeatureNotSupported : ℤ := -36

/-- `IXGBE_ERR_MBX`. -/
def errMbx : ℤ := -41

/-- `IXGBE_ERR_MBX_NOMSG`. -/
def errMbxNomsg : ℤ := -42

/-- `IXGBE_ERR_TIMEOUT`. -/
def errTimeout : ℤ := -43

end Ixgbevf
