import HouseStyle.Declaration.Basic

/-!
# Editing declarations

A declaration inside a tree is addressed by a path of member indices from the root. An edit changes
one declaration and leaves all others as they are; an edit that does not fit leaves everything.

* `at?`, `editAt`: the declaration at a path, and the tree with an edit made there.
* `setSignature`, `setHeader`, `setLines`: edits of the text of a declaration.
* `swapMembers`, `removeMember`, `insertMember`: edits of the members of a scope.
-/

namespace HouseStyle

/-- Why an edit cannot be made. -/
inductive EditError where
  /-- The path leads to no declaration. -/
  | noDeclaration
  /-- The declaration is a leaf and has no members. -/
  | noMembers
  /-- The declaration is a scope and has no raw lines. -/
  | noLines
  /-- No member, or no place for a member, has the index. -/
  | noIndex
  deriving DecidableEq, Repr

namespace Declaration

/-- A change of one declaration. -/
abbrev Edit := Declaration → Except EditError Declaration

/-- The declaration at a path. -/
def at? : List Nat → Declaration → Option Declaration
  | [], d => some d
  | _ :: _, .leaf _ _ _ => none
  | i :: path, .scope _ _ members => members[i]?.bind (at? path)

/-- The tree with an edit made at a path. -/
def editAt : List Nat → Edit → Edit
  | [], edit, d => edit d
  | _ :: _, _, .leaf _ _ _ => .error .noDeclaration
  | i :: path, edit, .scope opener head members =>
    match members[i]? with
    | none => .error .noDeclaration
    | some d => (editAt path edit d).map fun d => .scope opener head (members.set i d)

/-- The declaration with its head changed. -/
def mapHead (f : Head → Head) : Declaration → Declaration
  | .leaf kind head lines => .leaf kind (f head) lines
  | .scope opener head members => .scope opener (f head) members

/-- Replaces the signature. -/
def setSignature (signature : String) : Edit := fun d =>
  .ok (d.mapHead fun head => { head with signature })

/-- Replaces the header. -/
def setHeader (header : List String) : Edit := fun d =>
  .ok (d.mapHead fun head => { head with header })

/-- Replaces the raw lines of a leaf. -/
def setLines (lines : List String) : Edit
  | .leaf kind head _ => .ok (.leaf kind head lines)
  | .scope _ _ _ => .error .noLines

/-- Changes the members of a scope. -/
def editMembers (f : List Declaration → Except EditError (List Declaration)) : Edit
  | .leaf _ _ _ => .error .noMembers
  | .scope opener head members => (f members).map (.scope opener head)

/-- Exchanges two members. -/
def swapMembers (i j : Nat) : Edit := editMembers fun members =>
  match members[i]?, members[j]? with
  | some a, some b => .ok ((members.set i b).set j a)
  | _, _ => .error .noIndex

/-- Removes a member. -/
def removeMember (i : Nat) : Edit := editMembers fun members =>
  if i < members.length then .ok (members.eraseIdx i) else .error .noIndex

/-- Inserts a member in front of the member with the index, or behind the last one. -/
def insertMember (i : Nat) (member : Declaration) : Edit := editMembers fun members =>
  if i ≤ members.length then .ok (members.insertIdx i member) else .error .noIndex

end Declaration

end HouseStyle
