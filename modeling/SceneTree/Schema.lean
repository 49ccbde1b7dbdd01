import SceneTree.Source

/-!
This module contains schemas: the known layouts of containers, with the kind of source that each
field holds. A schema reads the fields of a container, and of a missing one, and builds containers
from the fields that are given.
-/

namespace SceneTree

inductive FieldKind where
  | leaf
  | container
  | vector
deriving DecidableEq

namespace FieldKind

def admits : FieldKind → Source → Bool
  | leaf, .sampled _ => true
  | container, .container .. => true
  | vector, .vector _ => true
  | _, _ => false

end FieldKind

/--
The fields of a kind of container, in order, and the name under which a prim holds it.
-/
structure Schema where
  name : Token := Token.unset
  fields : List (Token × FieldKind)

namespace Schema

def child? (kind : FieldKind) (data : Option Container) (name : Token) : Option Source :=
  (data.bind (·.child name)).filter kind.admits

/--
A field of a container that may be missing. A source of the wrong kind counts as no source.
-/
def field? (schema : Schema) (data : Option Container) (name : Token) : Option Source :=
  (Dict.get? schema.fields name).bind fun kind => child? kind data name

-- What is left out of a field would not be read as the kind that is asked for anyway.
theorem child?_container_bind (data : Option Container) (name : Token) :
    (child? .container data name).bind Source.container?
      =
    (data.bind (·.child name)).bind Source.container? := by
  unfold child?
  cases data.bind (·.child name) with
  | none => rfl
  | some source => cases source <;> rfl

theorem child?_leaf_bind (data : Option Container) (name : Token) :
    (child? .leaf data name).bind Source.sampled?
      =
    (data.bind (·.child name)).bind Source.sampled? := by
  unfold child?
  cases data.bind (·.child name) with
  | none => rfl
  | some source => cases source <;> rfl

def ofPrim (schema : Schema) (prim : Option Container) : Option Container :=
  prim.bind (·.container? schema.name)

def locator (schema : Schema) : Locator :=
  [schema.name]

def build (schema : Schema) (given : Token → Option Source) : Container :=
  Container.ofEntries (schema.fields.map fun field => (field.1, given field.1))

def namesOf (data : Option Container) : List Token :=
  data.elim [] (·.names)

/--
The transform of a prim. `matrix` is relative to the parent unless `resetXformStack` is set.
-/
def xform : Schema where
  name := "xform"
  fields := [("matrix", .leaf), ("resetXformStack", .leaf)]

def visibility : Schema where
  name := "visibility"
  fields := [("visibility", .leaf)]

def model : Schema where
  name := "model"
  fields := [("assetName", .leaf)]

def network : Schema where
  name := "material"
  fields := [("nodes", .container), ("terminals", .container), ("interfaceMappings", .container),
    ("config", .container)]

def node : Schema where
  fields := [("nodeIdentifier", .leaf), ("parameters", .container),
    ("inputConnections", .container), ("nodeTypeInfo", .container)]

def parameter : Schema where
  fields := [("value", .leaf), ("colorSpace", .leaf), ("typeName", .leaf)]

def connection : Schema where
  fields := [("upstreamNodePath", .leaf), ("upstreamNodeOutputName", .leaf)]

def token (schema : Schema) (data : Option Container) (name : Token) : Token :=
  ((schema.field? data name).bind (·.typed? Value.toToken? Time.zero)).getD Token.unset

def assetName (data : Option Container) : String :=
  ((model.field? data "assetName").bind (·.typed? Value.toString? Time.zero)).getD ""

end Schema

structure Connection where
  node : Token
  output : Token
deriving DecidableEq, Inhabited

namespace Connection

/--
The connection that a container describes. What is missing is unset.
-/
def ofContainer (data : Option Container) : Connection where
  node := Schema.connection.token data "upstreamNodePath"
  output := Schema.connection.token data "upstreamNodeOutputName"

def container (c : Connection) : Container :=
  Container.ofEntries [("upstreamNodePath", some (.value (.token c.node))),
    ("upstreamNodeOutputName", some (.value (.token c.output)))]

def vector (connections : List Connection) : Source :=
  .vector (connections.map (·.container.source))

end Connection

end SceneTree
