import LiveEdit.Member
import LiveEdit.Partner
import LiveEdit.Suspension

/-!
# Edit sessions

A session is a list of document versions in order.  `Session.review` goes through the declarations
of every version that have a body, lists their suspension points, and looks up where each point
is found in the next version.
-/

namespace LiveEdit.Session

/-- Where a suspension point is found in the next version: by its node, and by its offset. -/
structure Forward where
  partner : Except PartnerFault (Option Node)
  leaf : Option LeafMatch

/-- A suspension point, the declaration whose body holds it, and its place in the next version. -/
structure PointReview where
  point : SuspensionPoint
  owner : Except BodyFault (Option Declaration)
  next : Option Forward

/-- A declaration with a body. -/
structure DeclarationReview where
  declaration : Declaration
  isAsync : Bool
  isGenerator : Bool
  points : List PointReview

/-- The place of a suspension point of `root` in the version with root `next`. -/
def forward (root next : Node) (p : SuspensionPoint) : Forward where
  partner := root.partner next p.node
  leaf := (root.leafAndPartner p.node.start next).value

/-- A declaration of `root`, if it has a body. -/
def reviewDeclaration? (root : Node) (next : Option Node) (d : Declaration) :
    Option DeclarationReview :=
  d.ownBody?.map fun b =>
    { declaration := d
      isAsync := d.node.isAsync
      isGenerator := b.node.isGenerator
      points := b.node.resumePoints.map fun p =>
        { point := p, owner := p.node.owner.value, next := next.map fun n => forward root n p } }

/-- The declarations of each version, given the roots of the versions. -/
def review : List Node → List (List DeclarationReview)
  | [] => []
  | root :: rest =>
    root.declarations.filterMap (reviewDeclaration? root rest.head?) :: review rest

end LiveEdit.Session
