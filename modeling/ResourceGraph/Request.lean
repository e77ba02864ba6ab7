import ResourceGraph.Projection

/-!
Requests: a method of the client and the projections that build its parameters. A request stores
nothing between calls; what it does with a caller's parameters is said where invocations are.
-/

namespace ResourceGraph

/-- A client method bound to its projections. -/
structure Request where
  method : String
  params : List Projection
  deriving DecidableEq

namespace Request

/-- Makes a request; the method must have a name. -/
def make (method : String) (params : List Projection) : Except Failure Request :=
  if method.isEmpty then .error (.definition (.missingOption "method_name"))
  else .ok ⟨method, params⟩

/-- The request as messages show it. -/
def display (r : Request) : String :=
  "Request(" ++ Text.quoted r.method ++ ", params=" ++ toString r.params.length ++ ")"

end Request

end ResourceGraph
