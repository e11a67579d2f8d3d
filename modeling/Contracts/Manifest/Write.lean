import Contracts.Datum.Basic
import Contracts.Interface
import Contracts.Member
import Contracts.TypeName

/-! # Contracts Written as Data

  The data form of contracts, with the long keys and all fields given.
-/

namespace Contracts

/-- The label as data. -/
def Label.toDatum (a : Label) : Datum :=
  .text a.text

/-- The type name as data. -/
def TypeName.toDatum (name : TypeName) : Datum :=
  .text name.text

/-- The kind as data. -/
def MemberKind.toDatum (kind : MemberKind) : Datum :=
  .text kind.word

/-- The signature as data. -/
def Signature.toDatum (s : Signature) : Datum :=
  .object
    [("methodName", .text s.name),
      ("argTypes", .list (s.args.map Label.toDatum)),
      ("retType", s.ret.toDatum)]

/-- The interface as data. -/
def Interface.toDatum (i : Interface) : Datum :=
  .object [("name", .text i.name), ("methods", .list (i.methods.map Signature.toDatum))]

end Contracts
