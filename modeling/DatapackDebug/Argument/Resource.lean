import DatapackDebug.Argument.Scan
import DatapackDebug.Resource

namespace DatapackDebug

/-!
# Reading names of resources

* `Argument.resource` — a name at the front of a text;
* `Argument.resourceRef` — a name or, behind `#`, a tag;
* `ResourceName.parse` — a text that is a name.

Without a namespace, or with an empty one, the namespace is `minecraft`.
-/

namespace Argument

/-- The namespace of names that give none. -/
def defaultNamespace : Text := "minecraft"

/-- The name that a run of bytes stands for: at most one colon, no slash before it, and a path. -/
def resourceOfText? (text : Text) : Option ResourceName :=
  let (ns, path) := (Text.cut? ':' text).getD (defaultNamespace, text)
  if path.contains 0x3a || ns.contains 0x2f || path.isEmpty then none
  else some ⟨if ns.isEmpty then defaultNamespace else ns, path⟩

/-- The name of a resource. -/
def resource : Scan ResourceName := do
  let start ← get
  let text ← spanOf isResourceByte
  if text.isEmpty then fail (.missing .resource)
  match resourceOfText? text with
  | some name => return name
  | none => failAt start (.malformedResource text)

/-- The name of a resource or of a tag. -/
def resourceRef : Scan ResourceRef := do
  let tag ← accept '#'
  return ⟨tag, ← resource⟩

end Argument

/-- Why a whole text is not the name of a resource. -/
inductive ResourceError where
  | unreadable (cause : Argument.Cause)
  /-- something follows the name -/
  | trailing (text : Text)
deriving DecidableEq, Repr

/-- The wording of the error. -/
def ResourceError.message : ResourceError → Text
  | .unreadable cause => cause.message
  | .trailing text => "invalid resource location '" ++ text ++ "'"

/-- The name that a whole text is. -/
def ResourceName.parse (t : Text) : Except ResourceError ResourceName :=
  match Argument.resource t with
  | .error failure => .error (.unreadable failure.cause)
  | .ok (name, []) => .ok name
  | .ok (_, _ :: _) => .error (.trailing t)

end DatapackDebug
