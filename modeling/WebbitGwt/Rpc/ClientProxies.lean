import WebbitGwt.Java.Basic
import WebbitGwt.Java.Collections

/-!
# Client proxies in collections

A server tells its clients apart by the proxies that `onOpen` has made for them, and keeps
them in collections.  A proxy passes `equals` and `hashCode` on to its handler, with the
arguments it has been given, and the handler calls the methods that it has from `Object`:
so it is the handler that is compared, with another proxy.
-/

namespace WebbitGwt.Rpc.RpcEndpoint

open WebbitGwt.Java
open WebbitGwt.Java.Collections

universe u

/-- The `IH` that a call of `onOpen` creates; no two calls create the same object. -/
structure InvocationHandler where
  opening : Nat
  deriving DecidableEq

/-- A proxy for a client, with the handler it has been created with. -/
structure ClientProxy where
  h : InvocationHandler
  deriving DecidableEq

/-- What `server.setClient` is called with in a call of `onOpen`, after as many others. -/
def onOpen (opened : Nat) : ClientProxy where
  h := { opening := opened }

/-- A reference to an object.  Equality is that of references. -/
inductive Reference
  | handler (object : InvocationHandler)
  | proxy (object : ClientProxy)
  deriving DecidableEq

/-- A call of a method of `Object`, by the type of its result. -/
inductive ObjectCall : Type → Type
  | equals (obj : Reference) : ObjectCall Bool
  | hashCode : ObjectCall JInt

variable (identityHashCode : Reference → JInt) {R : Type}

/-- The implementations in `java.lang.Object`. -/
def Object.call (this : Reference) : ObjectCall R → R
  | .equals obj => this == obj
  | .hashCode => identityHashCode this

/-- `IH.invoke` for a method that is declared by `Object`: `method.invoke(this, args)`, with
the handler for `this`. -/
def IH.invokeObjectMethod (this : InvocationHandler) (called : ObjectCall R) : R :=
  Object.call identityHashCode (.handler this) called

namespace ClientProxy

/-- A method of `Object` that is called on a proxy goes to its handler. -/
def call (proxy : ClientProxy) (called : ObjectCall R) : R :=
  IH.invokeObjectMethod identityHashCode proxy.h called

/-- What a collection of proxies asks them. -/
def objectMethods : ObjectMethods ClientProxy JInt where
  equals this other := this.call identityHashCode (.equals (.proxy other))
  hashCode this := this.call identityHashCode .hashCode

/-- No proxy is equal to any, not even to itself. -/
theorem equals_eq_false (first second : ClientProxy) :
    (objectMethods identityHashCode).equals first second = false :=
  beq_eq_false_iff_ne.mpr nofun

end ClientProxy

/-- A proxy has been made by one call of `onOpen`. -/
theorem onOpen_bijective : Function.Bijective onOpen := by
  constructor
  · intro first second same
    cases same
    rfl
  · rintro ⟨⟨opening⟩⟩
    exact ⟨opening, rfl⟩

/-- Lists of proxies return what they should if and only if they are asked for none that they
have been given, since a proxy is not equal to itself.  Hash sets and hash maps, which
compare references first, always do. -/
theorem client_proxies_collected {V : Type u} :
    (∀ first second : ClientProxy,
      (ClientProxy.objectMethods identityHashCode).equals first second = false) ∧
    (∀ operations : List (ListOperation ClientProxy),
      outcomes (ArrayList.step (ClientProxy.objectMethods identityHashCode)) [] operations =
          outcomes sequenceStep [] operations ↔
        NeverSought [] operations) ∧
    (∀ operations : List (SetOperation ClientProxy),
      outcomes (HashSet.step (ClientProxy.objectMethods identityHashCode)) [] operations =
        outcomes setStep ∅ operations) ∧
    (∀ operations : List (MapOperation ClientProxy V),
      outcomes (HashMap.step (ClientProxy.objectMethods identityHashCode)) [] operations =
        outcomes mapStep (fun _ => none) operations) := by
  have never := ClientProxy.equals_eq_false identityHashCode
  have sound : ∀ first second : ClientProxy,
      (ClientProxy.objectMethods identityHashCode).equals first second = true →
        first = second := by
    intro first second equal
    rw [never first second] at equal
    cases equal
  refine ⟨never, ?_, ?_, ?_⟩
  · intro operations
    exact ArrayList.outcomes_of_never_iff never [] operations
  · intro operations
    exact HashSet.outcomes_eq sound operations
  · intro operations
    exact HashMap.outcomes_eq sound operations

/-- A client is added to a list, is not found there, and cannot be removed. -/
theorem listed_client_not_found :
    (ClientProxy.objectMethods fun _ => 0).equals (onOpen 0) (onOpen 0) = false ∧
      outcomes (ArrayList.step (ClientProxy.objectMethods fun _ => 0)) []
          [.add (onOpen 0), .contains (onOpen 0), .indexOf (onOpen 0), .remove (onOpen 0)] =
        [.returned true, .returned false, .index none, .returned false] ∧
      outcomes sequenceStep []
          [.add (onOpen 0), .contains (onOpen 0), .indexOf (onOpen 0), .remove (onOpen 0)] =
        [.returned true, .returned true, .index (some 0), .returned true] := by
  decide

end WebbitGwt.Rpc.RpcEndpoint
