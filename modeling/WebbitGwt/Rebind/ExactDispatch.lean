import WebbitGwt.Rebind.Overloads

/-!
# Calls between worker endpoints

A call of a generated proxy method passes through `__sendMessage`, the wire and
`__invoke` of the peer.  When the methods are told apart by name and number of
parameters, what is left that can go wrong is the array of arguments itself.
-/

namespace WebbitGwt.Rebind

open WebbitGwt.Java
open WebbitGwt.Rpc

universe u v

variable {V : Type u} {Cb : Type v}

/-- No two remote methods of a worker endpoint have the same name and the same number of
parameters. -/
def DistinctShapes (methods : List JMethod) : Prop :=
  DistinctShapesFor "com.colinalworth.gwt.worker.client.Endpoint" methods

/-- What a call of the method should come to at the peer: the same values, followed
by a reply callback under the id the caller has registered its own callback with. -/
def expectedArguments (sender : CallbackTable Cb) (method : JMethod) (args : List V) :
    List (Argument V) :=
  args.map .value ++
    if method.hasCallback then [.reply { callbackId := sender.nextCallbackId }] else []

namespace Values

variable {values : Values V}

/-- `__invoke` only calls methods with the parameters it was given. -/
theorem of_mem_invoke_calls {method : String} {params : List (Argument V)}
    {methods : List JMethod} {call : JMethod × List (Argument V)}
    (called : call ∈ (values.invoke method params methods).calls) : call.2 = params := by
  rw [invoke_calls] at called
  rcases List.mem_map.mp called with ⟨candidate, _, rfl⟩
  rfl

/-- The one remote method of the name and number of parameters is called once. -/
theorem invoke_calls_eq_singleton {method : JMethod} {params : List (Argument V)}
    {methods : List JMethod} (distinct : DistinctShapes methods) (declared : method ∈ methods)
    (remote : isRemoteMethod method) (counted : params.length = method.parameters.length)
    (casts : values.accepts params method) :
    (values.invoke method.name params methods).calls = [(method, params)] := by
  have onlyOne := DistinctShapesFor.matching_eq distinct declared remote counted
  rw [invoke_calls, onlyOne, List.takeWhile_cons_of_pos casts]
  rfl

/-- The array arrives as the arguments, unless the only argument is an array of
references that is not its own only element. -/
theorem varargs_getD_eq_iff {types : List JType} {args : List V}
    (sameLength : types.length = args.length) :
    (values.varargs (types.zip args)).getD [] = args ↔
      ∀ type value, types = [type] → args = [value] → type.isReferenceArray →
        values.elements value = some [value] := by
  rcases @varargs_cases V values types args sameLength with
    ⟨type, value, rfl, rfl, isArray, passed⟩ | ⟨notArray, passed⟩
  · rw [passed]
    cases elements : values.elements value <;> simp [isArray, elements]
  · rw [passed, Option.getD_some, eq_self_iff_true, true_iff]
    intro type value onlyType _ isArray
    exact absurd isArray (notArray type onlyType)

/-- What `__invoke` of the peer is told. -/
theorem deliver_eq {methods : List JMethod} {sender receiver : CallbackTable Cb}
    {method : JMethod} {args : List V} {callback : Option Cb}
    (given : callback.isSome = method.hasCallback) :
    values.deliver methods sender receiver method args callback =
      (values.invoke method.name
        (((values.varargs (method.valueTypes.zip args)).getD []).map .value ++
          if method.hasCallback ∧ sender.nextCallbackId ≠ 0 then
            [.reply { callbackId := sender.nextCallbackId }] else []) methods).calls := by
  cases hasCallback : method.hasCallback with
  | false =>
      have body : (printServerMethodBody method).passesCallback = false := hasCallback
      simp only [deliver, callProxy, body]
      rfl
  | true =>
      have body : (printServerMethodBody method).passesCallback = true := hasCallback
      rw [hasCallback, Option.isSome_iff_exists] at given
      rcases given with ⟨target, rfl⟩
      simp only [deliver, callProxy, body, true_and]
      rfl

/-- Casts of values to types they have succeed. -/
theorem castSucceeds_values {types : List JType} {args : List V}
    (fits : List.Forall₂ (fun type value => values.conforms type value) types args) :
    (types.zip (args.map Argument.value)).all fun (type, param) =>
      values.castSucceeds type param := by
  induction fits with
  | nil => rfl
  | cons head _ ih =>
      rw [List.map_cons, List.zip_cons_cons, List.all_cons, ih, Bool.and_true]
      exact head

/-- The casts of a method succeed on its own arguments. -/
theorem castSucceeds_expected {sender : CallbackTable Cb} {method : JMethod} {args : List V}
    (fits : List.Forall₂ (fun type value => values.conforms type value) method.valueTypes args) :
    (method.parameters.zip (expectedArguments sender method args)).all fun (type, param) =>
      values.castSucceeds type param := by
  have sameLength : method.valueTypes.length = (args.map (Argument.value (V := V))).length := by
    rw [List.length_map]
    exact fits.length_eq
  rw [method.parameters_eq, expectedArguments, List.zip_append sameLength, List.all_append,
    castSucceeds_values fits, Bool.true_and]
  split <;> simp [castSucceeds, JType.isCallback]

theorem length_expectedArguments {sender : CallbackTable Cb} {method : JMethod} {args : List V}
    (sameLength : method.valueTypes.length = args.length) :
    (expectedArguments sender method args).length = method.parameters.length := by
  rw [method.parameters_eq, expectedArguments, List.length_append, List.length_append,
    List.length_map, sameLength]
  split <;> rfl

/-- What the peer is told is what it should be told, under the two conditions. -/
theorem told_eq_expected_iff {sender : CallbackTable Cb} {method : JMethod} {told args : List V} :
    told.map Argument.value ++
        (if method.hasCallback ∧ sender.nextCallbackId ≠ 0 then
          [.reply { callbackId := sender.nextCallbackId }] else []) =
      expectedArguments sender method args ↔
    told = args ∧ (method.hasCallback → sender.nextCallbackId ≠ 0) := by
  have valueInjective : Function.Injective (Argument.value (V := V)) :=
    fun _ _ same => Argument.value.inj same
  rw [expectedArguments]
  cases hasCallback : method.hasCallback with
  | false => simp [valueInjective.list_map.eq_iff]
  | true =>
      by_cases wrapped : sender.nextCallbackId = 0
      · simp only [wrapped, ne_eq, not_true_eq_false, and_false, if_false, List.append_nil,
          if_true, forall_const, iff_false]
        intro same
        have present : Argument.reply { callbackId := 0 } ∈ told.map Argument.value := by
          rw [same]
          simp
        simp at present
      · simp only [ne_eq, wrapped, not_false_eq_true, and_self, if_true, forall_const, and_true,
          List.append_cancel_right_eq, valueInjective.list_map.eq_iff]

end Values

/-- A call of a generated proxy method results in exactly one call, of the same
method with the same arguments, if and only if two conditions hold: a single
argument that is an array of references is its own only element, and an id of zero
is not what a callback is registered under. -/
theorem exact_dispatch {values : Values V} {methods : List JMethod}
    {sender receiver : CallbackTable Cb} {method : JMethod} {args : List V}
    {callback : Option Cb} (distinct : DistinctShapes methods) (declared : method ∈ methods)
    (remote : isRemoteMethod method)
    (fits : List.Forall₂ (fun type value => values.conforms type value) method.valueTypes args)
    (given : callback.isSome = method.hasCallback) :
    values.deliver methods sender receiver method args callback =
        [(method, expectedArguments sender method args)] ↔
      (∀ type value, method.valueTypes = [type] → args = [value] → type.isReferenceArray →
        values.elements value = some [value]) ∧
      (method.hasCallback → sender.nextCallbackId ≠ 0) := by
  rw [Values.deliver_eq given, ← Values.varargs_getD_eq_iff fits.length_eq,
    ← Values.told_eq_expected_iff]
  constructor
  · intro called
    have shape := Values.of_mem_invoke_calls (by rw [called]; exact List.mem_singleton_self _)
    exact shape.symm
  · intro told
    rw [told]
    exact Values.invoke_calls_eq_singleton distinct declared remote
      (Values.length_expectedArguments fits.length_eq) (Values.castSucceeds_expected fits)

/-! ## A string array as the only argument -/

/-- `void show(String title, String[] lines, Callback<Void, Void> callback)` -/
def showTitled : JMethod where
  name := "show"
  enclosingType := "Page"
  parameters :=
    [.reference "java.lang.String", .array (.reference "java.lang.String"),
      .reference "com.google.gwt.core.client.Callback"]

/-- An array among several parameters arrives as it was sent, and so does a call
with a callback. -/
theorem exact_dispatch_showTitled :
    Text.values.deliver [showMethod, showTitled] (.new : CallbackTable Nat) .new showTitled
        [.text "title", .texts ["a", "b"]] (some 0) =
      [(showTitled, [.value (.text "title"), .value (.texts ["a", "b"]),
        .reply { callbackId := 1 }])] := by
  refine (exact_dispatch ?_ (by decide) (by decide) ?_ rfl).mpr ⟨nofun, fun _ => by decide⟩
  · unfold DistinctShapes DistinctShapesFor
    decide
  · exact .cons (by decide) (.cons (by decide) .nil)

/-- A call of `show` with two lines is lost, since no method has its name and two
parameters. -/
theorem show_lost :
    Text.values.deliver [showMethod, showTitled] (.new : CallbackTable Nat) .new showMethod
      [.texts ["a", "b"]] none = [] := by
  decide

end WebbitGwt.Rebind
