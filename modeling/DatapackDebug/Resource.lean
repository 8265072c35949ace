import DatapackDebug.Text.Basic

namespace DatapackDebug

/-!
# Names of resources

Functions, blocks, items and everything else in a datapack are named by a namespace and a path.

* `ResourceName.text` — `ns:path`;
* `ResourceName.mangled` — `ns+path` with `+` for `/`, which can stand in an entity tag;
* `ResourceName.compare` — by namespace, then by path.
-/

/-- The name of a resource: a namespace and a path in it. -/
structure ResourceName where
  ns : Text
  path : Text
deriving DecidableEq, Repr, Inhabited

namespace ResourceName

/-- The name as commands write it, `ns:path`. -/
def text (r : ResourceName) : Text := r.ns ++ ":" ++ r.path

/-- The name in a text that is cut at its first colon; what it holds is not checked. -/
def cut (t : Text) : ResourceName :=
  match Text.cut? ':' t with
  | some (ns, path) => ⟨ns, path⟩
  | none => ⟨t, []⟩

/-- The path with `+` in place of `/`. -/
def plusPath (r : ResourceName) : Text := Text.replaceByte '/' '+' r.path

/-- The name as a part of an entity tag, `ns+path` with `+` in place of `/`. -/
def mangled (r : ResourceName) : Text := r.ns ++ "+" ++ r.plusPath

/-- The order by namespace, then by path. -/
def compare (r s : ResourceName) : Ordering :=
  (Text.compare r.ns s.ns).then (Text.compare r.path s.path)

/-- Is `r` before `s`? -/
def lt (r s : ResourceName) : Bool := r.compare s == .lt

/-- Is `r` before `s` or equal to it? -/
def le (r s : ResourceName) : Bool := r.compare s != .gt

end ResourceName

/-- A resource, or with `tag` a tag that stands for several of them. -/
structure ResourceRef where
  tag : Bool
  name : ResourceName
deriving DecidableEq, Repr

/-- The reference as commands write it, with `#` in front of a tag. -/
def ResourceRef.text (r : ResourceRef) : Text :=
  if r.tag then "#" ++ r.name.text else r.name.text

end DatapackDebug
