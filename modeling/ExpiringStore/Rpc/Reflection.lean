import ExpiringStore.Rpc.Message

/-!
# Service reflection

A client may ask which services are offered: the store's own, and the one that answers this question
in the version in which it is asked.
-/
namespace ExpiringStore.Rpc

/-- The versions of the reflection service. -/
inductive ReflectionVersion where
  | v1
  | v1alpha
  deriving DecidableEq, Repr

def ReflectionVersion.serviceName : ReflectionVersion → String
  | .v1 => "grpc.reflection.v1.ServerReflection"
  | .v1alpha => "grpc.reflection.v1alpha.ServerReflection"

/-- The names of the services that reflection lists, in order. -/
def reflectedServices (version : ReflectionVersion) : List String :=
  [version.serviceName, Method.serviceName]

end ExpiringStore.Rpc
