import ResourceGraph.Graph.Build

/-!
Invoking operations. Enumerations are begun here and not carried out: nothing is built or called for
them until their first element is asked for.
-/

namespace ResourceGraph.Act

/-- Begins an enumeration. -/
def enumerate (harvest : Harvest) (context : Context) (progress : Progress) :
    Act EnumerationId :=
  modifyGet fun g =>
    (g.enumerations.size, { g with enumerations := g.enumerations.push ⟨harvest, context, progress⟩ })

/-- Invokes an operation. -/
def invoke (o : Operation) (context : Context) : Act Outcome := do
  match o.work with
  | .basic request => return .response (← sendRequest data request context)
  | .data request path =>
    let response ← sendRequest data request context
    return .value (← search path response.data)
  | .enumerateData request path =>
    return .enumeration (← enumerate (.values path) context (.untouched request))
  | .resource request builder =>
    let response ← sendRequest data request context
    return .built (← build builder { context with response := some response })
  | .enumerateResource request builder =>
    return .enumeration (← enumerate (.resources builder) context (.untouched request))
  | .reference builder => return .built (← build builder context)
  | .load request path =>
    runLoad data request path context
    match context.caller with
    | some id => return .built (.one id)
    | none => misuse .noCaller

end ResourceGraph.Act
