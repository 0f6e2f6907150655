import NexusSdk.Lib.Dict
import NexusSdk.Python

/-! The exceptions of the framework, the configurable error map, and the map that `settings.toml`
ships. -/

namespace NexusSdk

open Lib

/-! ### Exception classes -/

def fatalNexusError : PyClass :=
  .extend "nexus_client_sdk.nexus.exceptions._nexus_error.FatalNexusError" [baseException]

def transientNexusError : PyClass :=
  .extend "nexus_client_sdk.nexus.exceptions._nexus_error.TransientNexusError" [baseException]

def fatalCachingError : PyClass :=
  .extend "nexus_client_sdk.nexus.exceptions.cache_errors.FatalCachingError" [fatalNexusError]

def transientCachingError : PyClass :=
  .extend "nexus_client_sdk.nexus.exceptions.cache_errors.TransientCachingError"
    [transientNexusError]

/-- Its constructor takes the failed reader and the underlying exception. -/
def transientInputReaderError : PyClass :=
  { PyClass.extend "nexus_client_sdk.nexus.exceptions.input_reader_error.TransientInputReaderError"
      [transientNexusError] with takesOneArgument := false }

def fatalStartupConfigurationError : PyClass :=
  .extend "nexus_client_sdk.nexus.exceptions.startup_error.FatalStartupConfigurationError"
    [fatalNexusError]

/-! ### The error map -/

/-- `NexusErrorMap`: a remapped exception definition.  `target` is `none` when the configured path
could not be located. -/
structure NexusErrorMap where
  target : Option PyClass
  errors : List PyClass

/-- Try to map an exception using the internal errors list; an empty list remaps any exception. -/
def NexusErrorMap.mapException (m : NexusErrorMap) (ex : PyExc) : Option PyClass :=
  if m.errors.length = 0 then m.target
  else if m.errors.any fun source => ex.isInstance source then m.target
  else none

structure NexusErrorMapCollection where
  globalDefault : PyClass
  errorMap : Dict String (List NexusErrorMap)

/-- Map an exception with the entries of the caller's class, the first match first. -/
def NexusErrorMapCollection.mapError (c : NexusErrorMapCollection) (ex : PyExc)
    (callerFqn : String) : PyClass :=
  match c.errorMap.get? callerFqn with
  | some entries => (entries.findSome? fun entry => entry.mapException ex).getD c.globalDefault
  | none => c.globalDefault

/-- The qualified name of `InputCache`, under which its scoped entries are configured. -/
def inputCacheFqn : String := "nexus_client_sdk.nexus.abstractions.algorithm_cache.InputCache"

def resolveExcType (c : NexusErrorMapCollection) (ex : PyExc) : PyClass :=
  if ex.isInstance fatalCachingError then fatalCachingError
  else if ex.isInstance transientCachingError then transientCachingError
  else c.mapError ex inputCacheFqn

/-! ### The shipped configuration -/

/-- A class of the Cassandra driver, by its path under `cassandra`. -/
def cassandraError (name : String) : PyClass := .extend ("cassandra." ++ name) [exception]

/-- The errors of the first scoped entry. -/
def transientCassandraErrors : List PyClass :=
  ["Timeout", "Unavailable", "ReadTimeout", "WriteTimeout", "OperationTimedOut", "ReadFailure",
    "CoordinationFailure"].map cassandraError

/-- The errors of the second scoped entry. -/
def fatalCassandraErrors : List PyClass :=
  ["Unauthorized", "RequestValidationException", "AuthenticationFailed"].map cassandraError

/-- The collection that `CacheFactory.get_cache` builds from the shipped `settings.toml`. -/
def shippedErrorMap : NexusErrorMapCollection where
  globalDefault := fatalNexusError
  errorMap := .ofList [(inputCacheFqn,
    [⟨some transientCachingError, transientCassandraErrors⟩,
     ⟨some fatalCachingError, fatalCassandraErrors⟩,
     ⟨some fatalCachingError, []⟩])]

end NexusSdk
