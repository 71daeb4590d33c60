import WebbitGwt.Rpc.WorkerEndpoint

/-!
# Generated worker endpoints

`RemoteEndpointCreator` writes two pieces of code for a pair of endpoint
interfaces: the body of each proxy method, a call of `__sendMessage`, and the body
of `__invoke`, a sequence of conditional calls on `getRemote()`.  The generator is
modelled as a function from method declarations to these bodies, and the bodies
are given the meaning the compiler gives them.  The local implementation is a
parameter: it says which calls throw.
-/

namespace WebbitGwt.Rebind

open WebbitGwt.Java
open WebbitGwt.Rpc

universe u v

/-- The types of parameters, as far as generated code depends on them. -/
inductive JType
  | primitive (name : String)
  | reference (qualifiedSourceName : String)
  | array (component : JType)
  deriving DecidableEq

/-- Arrays of references are subtypes of `Object[]`, arrays of primitives are not. -/
def JType.isReferenceArray : JType → Bool
  | .array (.primitive _) => false
  | .array _ => true
  | _ => false

/-- The test of the generator for callback parameters. -/
def JType.isCallback (type : JType) : Bool :=
  type == .reference "com.google.gwt.core.client.Callback"

/-- A method of an endpoint interface. -/
structure JMethod where
  name : String
  enclosingType : String
  parameters : List JType
  deriving DecidableEq

/-- `isRemoteMethod(m, superClass)` of both generators. -/
def isRemoteFor (superClass : String) (method : JMethod) : Bool :=
  method.enclosingType != superClass

/-- `isRemoteMethod(m, Endpoint.class)` -/
def isRemoteMethod (method : JMethod) : Bool :=
  isRemoteFor "com.colinalworth.gwt.worker.client.Endpoint" method

/-- The loop of `printServerMethodBody` over the parameters: the last one is set
apart if it is a callback, all the others become arguments. -/
def splitParameters : List JType → List JType × Bool
  | [] => ([], false)
  | [last] => if last.isCallback then ([], true) else ([last], false)
  | first :: second :: rest =>
      let (arguments, callback) := splitParameters (second :: rest)
      (first :: arguments, callback)

/-- The generated statement `__sendMessage("name", callback, arguments)`: the static
types of the arguments, and whether the callback is a parameter or `null`. -/
structure ProxyBody where
  methodName : String
  arguments : List JType
  passesCallback : Bool

/-- `printServerMethodBody` -/
def printServerMethodBody (method : JMethod) : ProxyBody where
  methodName := method.name
  arguments := (splitParameters method.parameters).1
  passesCallback := (splitParameters method.parameters).2

/-- The parameters of a method that travel as values. -/
def JMethod.valueTypes (method : JMethod) : List JType :=
  (splitParameters method.parameters).1

/-- The method declares a callback in the last place. -/
def JMethod.hasCallback (method : JMethod) : Bool :=
  (splitParameters method.parameters).2

/-- What generated code asks of argument values: the elements of an array of
references, where `none` stands for a null reference, and whether a cast succeeds. -/
structure Values (V : Type u) where
  elements : V → Option (List V)
  conforms : JType → V → Bool

variable {V : Type u} {Cb : Type v}

/-- What a call of the local implementation throws, if it does. -/
abbrev Implementation (V : Type u) := JMethod → List (Argument V) → Option Throwable

/-- The test in front of a generated call. -/
def matchesMessage (superClass method : String) (params : List (Argument V))
    (candidate : JMethod) : Bool :=
  isRemoteFor superClass candidate &&
    (method == candidate.name && params.length == candidate.parameters.length)

namespace Values

variable (values : Values V)

/-- The array a method declared with `Object... params` is passed for arguments of
the given static types.  A single argument that is an array of references is passed
as the array itself. -/
def varargs : List (JType × V) → Option (List V)
  | [(type, value)] => if type.isReferenceArray then values.elements value else some [value]
  | arguments => some (arguments.map Prod.snd)

/-- A call of a generated proxy method, with lossless serialization. -/
def callProxy (body : ProxyBody) (table : CallbackTable Cb) (args : List V)
    (callback : Option Cb) : CallbackTable Cb × Transmission (RemoteMessage V) :=
  WorkerEndpoint.sendMessage .ok table body.methodName
    (if body.passesCallback then callback else none)
    (values.varargs (body.arguments.zip args))

/-- The cast in front of an argument succeeds.  A reply callback is a `Callback`. -/
def castSucceeds (type : JType) : Argument V → Bool
  | .value value => values.conforms type value
  | .reply _ => type.isCallback || type == .reference "java.lang.Object"

/-- What a run of `__invoke` calls on `getRemote()`, and what it throws. -/
structure Dispatch (V : Type u) where
  calls : List (JMethod × List (Argument V)) := []
  thrown : Option Throwable := none

/-- All casts in a generated call succeed. -/
def accepts (params : List (Argument V)) (candidate : JMethod) : Bool :=
  (candidate.parameters.zip params).all fun (type, param) => values.castSucceeds type param

/-- A run of the generated body of `__invoke` for the methods of the local interface: each
remote method contributes a conditional call, and a condition that fails does not end the
run. -/
def dispatch (superClass : String) (implementation : Implementation V) (method : String)
    (params : List (Argument V)) : List JMethod → Dispatch V
  | [] => {}
  | candidate :: rest =>
      if matchesMessage superClass method params candidate then
        if values.accepts params candidate then
          match implementation candidate params with
          | none =>
              let later := dispatch superClass implementation method params rest
              { later with calls := (candidate, params) :: later.calls }
          | some exception => { calls := [(candidate, params)], thrown := some exception }
        else
          { thrown := some .classCastException }
      else
        dispatch superClass implementation method params rest

/-- `__invoke` of a worker endpoint. -/
def remoteInvoke : Implementation V → String → List (Argument V) → List JMethod → Dispatch V :=
  values.dispatch "com.colinalworth.gwt.worker.client.Endpoint"

/-- `__invoke` of a worker endpoint whose local methods return. -/
def invoke : String → List (Argument V) → List JMethod → Dispatch V :=
  values.remoteInvoke fun _ _ => none

/-- A proxy call, all the way to the calls it results in at the peer. -/
def deliver (methods : List JMethod) (sender receiver : CallbackTable Cb) (method : JMethod)
    (args : List V) (callback : Option Cb) : List (JMethod × List (Argument V)) :=
  match (values.callProxy (printServerMethodBody method) sender args callback).2.wire with
  | none => []
  | some message =>
      match (WorkerEndpoint.onMessage receiver message.received).2 with
      | .invoke name params => (values.invoke name params methods).calls
      | _ => []

end Values

/-! ## The two bodies -/

/-- The parameters are the arguments, followed by the callback if there is one. -/
theorem splitParameters_spec (parameters : List JType) :
    parameters = (splitParameters parameters).1 ++
      if (splitParameters parameters).2 then
        [.reference "com.google.gwt.core.client.Callback"] else [] := by
  fun_induction splitParameters parameters with
  | case1 => rfl
  | case2 last isCallback => simpa [JType.isCallback] using isCallback
  | case3 last notCallback => simp
  | case4 first second rest arguments callback split ih =>
      rw [split] at ih
      simpa using ih

theorem JMethod.parameters_eq (method : JMethod) :
    method.parameters = method.valueTypes ++
      if method.hasCallback then
        [.reference "com.google.gwt.core.client.Callback"] else [] :=
  splitParameters_spec method.parameters

/-- The arguments are passed as an array of their own, unless the only one is an array
of references itself. -/
theorem Values.varargs_cases {values : Values V} {types : List JType} {args : List V}
    (sameLength : types.length = args.length) :
    (∃ type value, types = [type] ∧ args = [value] ∧ type.isReferenceArray ∧
      values.varargs (types.zip args) = values.elements value) ∨
    ((∀ type, types = [type] → ¬ type.isReferenceArray) ∧
      values.varargs (types.zip args) = some args) := by
  match types, args, sameLength with
  | [], [], _ => exact Or.inr ⟨nofun, rfl⟩
  | [type], [value], _ =>
      by_cases isArray : type.isReferenceArray
      · exact Or.inl ⟨type, value, rfl, rfl, isArray, if_pos isArray⟩
      · refine Or.inr ⟨?_, if_neg isArray⟩
        rintro _ ⟨⟩
        exact isArray
  | first :: second :: types, value :: next :: args, sameLength =>
      refine Or.inr ⟨nofun, congrArg some ?_⟩
      exact List.map_snd_zip (Nat.le_of_eq sameLength.symm)

end WebbitGwt.Rebind
