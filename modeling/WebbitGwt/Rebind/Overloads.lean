import WebbitGwt.Rebind.RemoteEndpointCreator

/-!
# Overloaded methods in `__invoke`

`RemoteEndpointCreator` and `ServerCreator` write the same `__invoke`: a test of name
and number of parameters for each remote method, one after the other.  A call that
returns is followed by the next test, so the overloads of a method may all be called
for one message.
-/

namespace WebbitGwt.Rebind

open WebbitGwt.Java
open WebbitGwt.Rpc

universe u

variable {V : Type u}

namespace Values

variable (values : Values V)

/-- `__invoke` of a client's server proxy. -/
def clientInvoke : Implementation V → String → List (Argument V) → List JMethod → Dispatch V :=
  values.dispatch "com.colinalworth.gwt.websockets.shared.Client"

end Values

/-- The methods whose test a message passes, in the order of the tests. -/
def matching (superClass method : String) (params : List (Argument V)) (methods : List JMethod) :
    List JMethod :=
  methods.filter (matchesMessage superClass method params)

/-- The tests of a method's own message are passed by remote methods of its shape. -/
theorem matchesMessage_iff {superClass : String} {method : JMethod} {params : List (Argument V)}
    (counted : params.length = method.parameters.length) (candidate : JMethod) :
    matchesMessage superClass method.name params candidate ↔
      isRemoteFor superClass candidate ∧ candidate.name = method.name ∧
        candidate.parameters.length = method.parameters.length := by
  simp only [matchesMessage, counted, Bool.and_eq_true, beq_iff_eq]
  rw [@eq_comm _ method.name, @eq_comm _ method.parameters.length]

/-- No two remote methods have the same name and the same number of parameters. -/
def DistinctShapesFor (superClass : String) (methods : List JMethod) : Prop :=
  (methods.filter (isRemoteFor superClass)).Pairwise fun first second =>
    ¬ (first.name = second.name ∧ first.parameters.length = second.parameters.length)

/-- Then the test of one method at most can be passed. -/
theorem DistinctShapesFor.matching_eq {superClass : String} {methods : List JMethod}
    {method : JMethod} (distinct : DistinctShapesFor superClass methods)
    (declared : method ∈ methods) (remote : isRemoteFor superClass method)
    {params : List (Argument V)} (counted : params.length = method.parameters.length) :
    matching superClass method.name params methods = [method] := by
  induction methods with
  | nil => cases declared
  | cons candidate rest ih =>
      by_cases isRemote : isRemoteFor superClass candidate
      · rw [DistinctShapesFor, List.filter_cons_of_pos isRemote, List.pairwise_cons] at distinct
        rcases List.mem_cons.mp declared with rfl | inRest
        · have passes := (matchesMessage_iff counted method).mpr ⟨remote, rfl, rfl⟩
          rw [matching, List.filter_cons_of_pos passes, List.cons.injEq]
          refine ⟨rfl, List.filter_eq_nil_iff.mpr ?_⟩
          intro other present passed
          rcases (matchesMessage_iff counted other).mp passed with ⟨otherRemote, name, length⟩
          exact distinct.1 other (List.mem_filter.mpr ⟨present, otherRemote⟩)
            ⟨name.symm, length.symm⟩
        · have fails : ¬ matchesMessage superClass method.name params candidate := by
            intro passed
            rcases (matchesMessage_iff counted candidate).mp passed with ⟨_, name, length⟩
            exact distinct.1 method (List.mem_filter.mpr ⟨inRest, remote⟩) ⟨name, length⟩
          rw [matching, List.filter_cons_of_neg fails]
          exact ih distinct.2 inRest
      · have fails : ¬ matchesMessage superClass method.name params candidate :=
          fun passed => isRemote ((matchesMessage_iff counted candidate).mp passed).1
        rw [DistinctShapesFor, List.filter_cons_of_neg isRemote] at distinct
        rw [matching, List.filter_cons_of_neg fails]
        rcases List.mem_cons.mp declared with rfl | inRest
        · exact absurd remote isRemote
        · exact ih distinct inRest

namespace Values

variable {values : Values V} {superClass method : String} {implementation : Implementation V}
  {params : List (Argument V)}

/-- Methods whose test fails make no difference. -/
theorem dispatch_matching (methods : List JMethod) :
    values.dispatch superClass implementation method params methods =
      values.dispatch superClass implementation method params
        (matching superClass method params methods) := by
  induction methods with
  | nil => rfl
  | cons candidate rest ih =>
      cases matched : matchesMessage superClass method params candidate with
      | false =>
          have skipped : matching superClass method params (candidate :: rest) =
              matching superClass method params rest := by
            rw [matching, List.filter_cons_of_neg (by rw [matched]; exact Bool.false_ne_true)]
            rfl
          rw [dispatch, matched, if_neg Bool.false_ne_true, skipped, ih]
      | true =>
          have kept : matching superClass method params (candidate :: rest) =
              candidate :: matching superClass method params rest :=
            List.filter_cons_of_pos matched
          rw [kept, dispatch, dispatch, ih]

/-- The first of the methods whose test a message passes: it is called if the casts
succeed, and what comes after it is reached if it returns. -/
theorem dispatch_cons {first : JMethod} (matched : matchesMessage superClass method params first)
    (rest : List JMethod) :
    (values.dispatch superClass implementation method params (first :: rest)).calls =
      if values.accepts params first then
        (first, params) ::
          if (implementation first params).isNone then
            (values.dispatch superClass implementation method params rest).calls
          else []
      else [] := by
  rw [dispatch, if_pos matched]
  split
  · cases implementation first params <;> rfl
  · rfl

/-- If no call throws, methods whose test is passed are called up to the first that does
not accept the parameters. -/
theorem dispatch_calls_of_returns {candidates : List JMethod}
    (passed : ∀ candidate ∈ candidates, matchesMessage superClass method params candidate) :
    (values.dispatch superClass (fun _ _ => none) method params candidates).calls =
      (candidates.takeWhile (values.accepts params)).map fun candidate => (candidate, params) := by
  induction candidates with
  | nil => rfl
  | cons candidate rest ih =>
      rw [List.forall_mem_cons] at passed
      rw [dispatch_cons passed.1]
      by_cases accepted : values.accepts params candidate
      · rw [if_pos accepted, if_pos Option.isNone_none, ih passed.2,
          List.takeWhile_cons_of_pos accepted, List.map_cons]
      · rw [if_neg accepted, List.takeWhile_cons_of_neg accepted, List.map_nil]

theorem passed_of_mem_matching {methods : List JMethod} :
    ∀ candidate ∈ matching superClass method params methods,
      matchesMessage superClass method params candidate :=
  fun _ present => (List.mem_filter.mp present).2

/-- What `__invoke` of a worker endpoint calls when no call throws. -/
theorem invoke_calls (method : String) (params : List (Argument V)) (methods : List JMethod) :
    (values.invoke method params methods).calls =
      ((matching "com.colinalworth.gwt.worker.client.Endpoint" method params methods).takeWhile
        (values.accepts params)).map fun candidate => (candidate, params) := by
  rw [invoke, remoteInvoke, dispatch_matching]
  exact dispatch_calls_of_returns passed_of_mem_matching

/-- One message has more than one method called exactly when the first two methods
whose test it passes both accept the parameters and the first of them returns. -/
theorem length_calls_le_one_iff (methods : List JMethod) :
    (values.dispatch superClass implementation method params methods).calls.length ≤ 1 ↔
      ∀ first second rest, matching superClass method params methods = first :: second :: rest →
        ¬ (values.accepts params first ∧ implementation first params = none ∧
          values.accepts params second) := by
  rw [dispatch_matching]
  have matches_of_mem := @passed_of_mem_matching V superClass method params methods
  cases candidates : matching superClass method params methods with
  | nil => exact ⟨fun _ => nofun, fun _ => Nat.zero_le 1⟩
  | cons first others =>
      rw [candidates, List.forall_mem_cons] at matches_of_mem
      rw [dispatch_cons matches_of_mem.1]
      cases others with
      | nil =>
          refine ⟨fun _ => nofun, fun _ => ?_⟩
          split
          · split <;> exact Nat.le_refl 1
          · exact Nat.zero_le 1
      | cons second rest =>
          rw [List.forall_mem_cons] at matches_of_mem
          rw [dispatch_cons matches_of_mem.2.1]
          constructor
          · rintro atMostOne _ _ _ ⟨⟩ ⟨accepted, returns, acceptedToo⟩
            rw [if_pos accepted, returns, if_pos acceptedToo] at atMostOne
            simp at atMostOne
          · intro notBoth
            have notBoth := notBoth first second rest rfl
            by_cases accepted : values.accepts params first = true
            · rw [if_pos accepted]
              cases returns : implementation first params with
              | none =>
                  have refused : ¬ values.accepts params second = true := fun acceptedToo =>
                    notBoth ⟨accepted, returns, acceptedToo⟩
                  rw [if_neg refused]
                  exact Nat.le_refl 1
              | some exception => exact Nat.le_refl 1
            · rw [if_neg accepted]
              exact Nat.zero_le 1

end Values

/-- A message has at most one method of the local implementation called unless the first
two remote methods of its name and number of parameters both accept the parameters and
the first of them returns. -/
theorem at_most_one_call_iff (values : Values V) (implementation : Implementation V)
    (method : String) (params : List (Argument V)) (methods : List JMethod) :
    ((values.remoteInvoke implementation method params methods).calls.length ≤ 1 ↔
      ∀ first second rest,
        matching "com.colinalworth.gwt.worker.client.Endpoint" method params methods =
          first :: second :: rest →
        ¬ (values.accepts params first ∧ implementation first params = none ∧
          values.accepts params second)) ∧
    ((values.clientInvoke implementation method params methods).calls.length ≤ 1 ↔
      ∀ first second rest,
        matching "com.colinalworth.gwt.websockets.shared.Client" method params methods =
          first :: second :: rest →
        ¬ (values.accepts params first ∧ implementation first params = none ∧
          values.accepts params second)) :=
  ⟨Values.length_calls_le_one_iff methods, Values.length_calls_le_one_iff methods⟩

/-! ## Texts and arrays of texts -/

/-- Null, strings and arrays of strings. -/
inductive Text
  | null
  | text (value : String)
  | texts (elements : List String)
  deriving DecidableEq

/-- Their elements and types. -/
def Text.values : Values Text where
  elements
    | .texts elements => some (elements.map .text)
    | _ => none
  conforms
    | .reference "java.lang.String", .null => true
    | .reference "java.lang.String", .text _ => true
    | .array (.reference "java.lang.String"), .null => true
    | .array (.reference "java.lang.String"), .texts _ => true
    | _, _ => false

/-- `void show(String[] lines)` -/
def showMethod : JMethod where
  name := "show"
  enclosingType := "Page"
  parameters := [.array (.reference "java.lang.String")]

/-- `void show(String text)` -/
def showText : JMethod where
  name := "show"
  enclosingType := "Page"
  parameters := [.reference "java.lang.String"]

/-- Null is a string and an array of strings, so both overloads of `show` are called. -/
theorem show_called_twice :
    (Text.values.remoteInvoke (fun _ _ => none) "show" [.value .null]
        [showText, showMethod]).calls =
      [(showText, [.value .null]), (showMethod, [.value .null])] ∧
    (Text.values.clientInvoke (fun _ _ => none) "show" [.value .null]
        [showText, showMethod]).calls =
      [(showText, [.value .null]), (showMethod, [.value .null])] := by
  decide

end WebbitGwt.Rebind
