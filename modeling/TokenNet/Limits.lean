/-!
# Limits

Three bounds keep a network finite in time and size.  All of them have defaults, so a settings
text need only name the ones it changes.
-/

namespace TokenNet

/-- The bounds under which a network is built and run. -/
structure Limits where
  /-- A stateful primitive fails once its calls reach this number. -/
  callLimit : UInt32 := 20
  /-- The largest number of nodes that one run fires. -/
  chainLimit : Nat := 10000
  /-- The largest depth at which a build places a node. -/
  nestingLimit : Nat := 64
deriving DecidableEq, Repr, Inhabited

end TokenNet
