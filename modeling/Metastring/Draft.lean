import Metastring.DecodeError
import Metastring.Spec

/-!
# Specifications being read

While the fields of a message or a member are read one by one, what is known
so far is a draft.  A field may be given once, in any place.  When the last
field has been read the draft is completed: required fields have to be there,
and the others take their defaults.  The rules are the same in every notation.
-/

namespace Metastring

inductive MessageField where
  | scope
  | name
  | members
deriving DecidableEq, Inhabited

inductive MemberField where
  | name
  | kind
  | isArray
  | arraySize
  | isUpperBound
  | message
deriving DecidableEq, Inhabited

namespace MessageField

def key : MessageField → String
  | scope => "namespace"
  | name => "name"
  | members => "members"

def ofKey? (key : String) : Option MessageField :=
  [scope, name, members].find? (·.key = key)

end MessageField

namespace MemberField

def key : MemberField → String
  | name => "name"
  | kind => "type"
  | isArray => "is_array"
  | arraySize => "array_size"
  | isUpperBound => "is_upper_bound"
  | message => "message"

def ofKey? (key : String) : Option MemberField :=
  [name, kind, isArray, arraySize, isUpperBound, message].find? (·.key = key)

end MemberField

/-- What is known of a message while its fields are being read. -/
structure MessageDraft where
  scope : Option String := none
  name : Option String := none
  members : Option (List MemberSpec) := none

/-- What is known of a member while its fields are being read.  The block may
be known to be absent. -/
structure MemberDraft where
  name : Option String := none
  kind : Option DeclaredKind := none
  isArray : Option Bool := none
  arraySize : Option UInt64 := none
  isUpperBound : Option Bool := none
  message : Option (Option MessageSpec) := none

namespace MessageDraft

def has (draft : MessageDraft) : MessageField → Bool
  | .scope => draft.scope.isSome
  | .name => draft.name.isSome
  | .members => draft.members.isSome

def complete (draft : MessageDraft) : Decoded MessageSpec :=
  match draft.name with
  | none => .error (.missingField MessageField.name.key)
  | some name =>
    .ok (.mk ⟨⟨draft.scope.getD "", name⟩, draft.members.getD []⟩)

end MessageDraft

namespace MemberDraft

def has (draft : MemberDraft) : MemberField → Bool
  | .name => draft.name.isSome
  | .kind => draft.kind.isSome
  | .isArray => draft.isArray.isSome
  | .arraySize => draft.arraySize.isSome
  | .isUpperBound => draft.isUpperBound.isSome
  | .message => draft.message.isSome

def shape (draft : MemberDraft) : Shape :=
  ⟨draft.isArray.getD false, draft.arraySize.getD 0,
    draft.isUpperBound.getD false⟩

def complete (draft : MemberDraft) : Decoded MemberSpec :=
  match draft.name, draft.kind with
  | none, _ => .error (.missingField MemberField.name.key)
  | some _, none => .error (.missingField MemberField.kind.key)
  | some name, some kind => .ok ⟨name, kind, draft.shape, draft.message.getD none⟩

end MemberDraft

/-- The declared kind with the given spelling. -/
def readKind (spelling : String) : Decoded DeclaredKind :=
  match DeclaredKind.ofSpelling? spelling with
  | some kind => .ok kind
  | none => .error (.unknownKind spelling)

end Metastring
