import TokenNet.Call

/-!
# Failures

What can go wrong between a library and the result of a run: the build is aborted, or the network
refuses a call.
-/

namespace TokenNet

/-- Why no result was reached. -/
inductive Failure where
  | build (error : BuildError)
  | refusal (reason : Refusal)
deriving DecidableEq, Repr, Inhabited

/-- The wording of a failure. -/
def Failure.message : Failure → String
  | build error => error.message
  | refusal reason => reason.message

/-- A network whose root is the given specification, in a library of that specification and the
primitives. -/
def Specification.instantiateAlone (spec : Specification) (limits : Limits) :
    Except BuildError Network := do
  match Library.primitives.add spec with
  | .ok library => library.instantiate spec.identifier { limits }
  | .error refusal => throw (.registry refusal)

/-- What building a network of one specification reports. -/
def Specification.aloneNotices (spec : Specification) (limits : Limits) : List Notice :=
  Library.primitives.editNotices (.add spec) ++
    match Library.primitives.add spec with
    | .ok library => library.instantiateNotices spec.identifier { limits }
    | .error _ => []

end TokenNet
