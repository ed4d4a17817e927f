/-!
# CmdletForge.Cmdlet.Registry

Which emitter a request property is handled by.

1. A route is a service, an operation and a property.  Registering an emitter for a route
   replaces the one that was registered for it before.
2. A property is handled by the emitter of exactly its route, else by that of the route with any
   operation, else by the default one.
-/

namespace CmdletForge.Cmdlet

/-- How a request property becomes parameters. -/
inductive Emitter where
  /-- A parameter of the property's type, which is assigned to it. -/
  | default
  /-- A switch for the accelerate endpoint, which is no part of the request. -/
  | accelerate
  /-- A switch for the dualstack endpoint, which is no part of the request. -/
  | dualstack
  /-- A text that is parsed as a verb of a presigned address. -/
  | httpVerb
  /-- A text that is parsed as the protocol of a presigned address. -/
  | protocol
  /-- Two switches for the storage class. -/
  | storageClass
  deriving DecidableEq, Repr

def Emitter.name : Emitter → String
  | .default => "Default"
  | .accelerate => "Accelerate"
  | .dualstack => "Dualstack"
  | .httpVerb => "HttpVerb"
  | .protocol => "Protocol"
  | .storageClass => "S3StorageClass"

/-- What an emitter is registered for. -/
structure Route where
  service : String
  operation : String
  property : String
  deriving DecidableEq, Repr

/-- The operation that stands for every operation of a service. -/
def anyOperation : String := "*"

/-- The emitters of routes; no route stands there twice. -/
structure Registry where
  entries : List (Route × Emitter)
  deriving DecidableEq, Repr

namespace Registry

def empty : Registry := ⟨[]⟩

/-- Puts the emitter of a route in the place of the one that is there, or at the end. -/
def put (route : Route) (emitter : Emitter) : List (Route × Emitter) → List (Route × Emitter)
  | [] => [(route, emitter)]
  | (other, old) :: rest =>
    if other = route then (route, emitter) :: rest else (other, old) :: put route emitter rest

/-- Registers an emitter for a route. -/
def register (r : Registry) (route : Route) (emitter : Emitter) : Registry :=
  ⟨put route emitter r.entries⟩

/-- Registers emitters in turn. -/
def registerAll (r : Registry) (entries : List (Route × Emitter)) : Registry :=
  entries.foldl (fun r (route, emitter) => r.register route emitter) r

/-- The emitter that is registered for exactly a route. -/
def emitter? (r : Registry) (route : Route) : Option Emitter := r.entries.lookup route

/-- The emitter that handles the property of a route. -/
def resolve (r : Registry) (route : Route) : Emitter :=
  (r.emitter? route <|> r.emitter? { route with operation := anyOperation }).getD .default

def size (r : Registry) : Nat := r.entries.length

/-- The emitters that are always registered. -/
def builtin : Registry := empty.registerAll
  [ (⟨"S3", anyOperation, "UseAccelerateEndpoint"⟩, .accelerate),
    (⟨"S3", anyOperation, "UseDualstackEndpoint"⟩, .dualstack),
    (⟨"S3", "GetPreSignedURL", "Verb"⟩, .httpVerb),
    (⟨"S3", "GetPreSignedURL", "Protocol"⟩, .protocol),
    (⟨"S3", "PutObject", "StorageClass"⟩, .storageClass),
    (⟨"S3", "CopyObject", "StorageClass"⟩, .storageClass),
    (⟨"S3", "InitiateMultipartUpload", "StorageClass"⟩, .storageClass),
    (⟨"S3", "Upload", "StorageClass"⟩, .storageClass) ]

end Registry

end CmdletForge.Cmdlet
