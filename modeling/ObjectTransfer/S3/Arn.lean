import ObjectTransfer.Text.Pieces
/-!
Resource names. A bucket may be given as the name of an access point, in the form
`arn:partition:service:region:account:resource`; only some of these can be addressed.
-/
namespace ObjectTransfer.S3

structure Arn where
  partition : String
  service : String
  region : String
  account : String
  /-- The pieces between the colons and slashes of the last part. -/
  resource : List String
  deriving Repr, DecidableEq, Inhabited

namespace Arn

/-- The partition of the region that requests are sent to. -/
def homePartition : String := "aws"

/-- Reads a resource name; partition, service and resource are never empty. -/
def parse? (s : String) : Option Arn :=
  match s.toList.splitOn ':' with
  | arn :: partition :: service :: region :: account :: first :: more =>
    if arn != "arn".toList || partition.isEmpty || service.isEmpty ||
        (first.isEmpty && more.isEmpty) then none
    else
      let resource := (first :: more).flatMap (·.splitOn '/')
      some ⟨String.ofList partition, String.ofList service, String.ofList region,
        String.ofList account, resource.map String.ofList⟩
  | _ => none

/-- Letters, digits and hyphens, the first no hyphen, and at most 63 of them. -/
def isLabel (s : String) : Bool :=
  s != "" && s.utf8ByteSize ≤ 63 && s.toList.head? != some '-' &&
    s.toList.all fun c => c.isAlphanum || c == '-'

def isDottedLabel (s : String) : Bool :=
  (s.toList.splitOn '.').all fun label => isLabel (String.ofList label)

/-- How the names of regions in other partitions begin. -/
def foreignLeads : List String :=
  ["cn-", "us-gov-", "us-iso-", "us-isob-", "us-isof-", "eu-isoe-", "eusc-de-"]

/-- A word, a hyphen and a number, as the names of regions end. -/
def isPlaceAndNumber (cs : List Char) : Bool :=
  match cs.splitOn '-' with
  | [place, number] =>
    !place.isEmpty && place.all (fun c => c.isAlphanum || c == '_') && !number.isEmpty &&
      number.all Char.isDigit
  | _ => false

/-- Whether a region is in another partition, seen from the form of its name. -/
def isForeign (region : String) : Bool :=
  foreignLeads.any fun lead => (Text.after? lead.toList region.toList).any isPlaceAndNumber

/-- Whether the name says where its resource is: in a region of the home partition, and in an
account. -/
def isPlaced (a : Arn) : Bool :=
  !isForeign a.region && isDottedLabel a.region && isLabel a.account

/-- Whether requests can be sent to the resource: an access point in a region, also one for object
functions or on an outpost, or an access point in all regions. -/
def isAddressable (a : Arn) : Bool :=
  match a.service, a.resource with
  | "s3-object-lambda", ["accesspoint", name] => a.isPlaced && isLabel name
  | "s3-object-lambda", _ => false
  | service, "accesspoint" :: name :: more =>
    if a.region = "" then isDottedLabel name && a.partition == homePartition
    else service == "s3" && more.isEmpty && a.isPlaced && isLabel name
  | "s3-outposts", [kind, outpost, "accesspoint", _] => kind != "" && a.isPlaced && isLabel outpost
  | _, _ => false

/-- Whether requests for a bucket can be sent: it is no resource name, or one that can be
addressed. -/
def addresses (bucket : String) : Bool :=
  (Text.after? "arn:".toList bucket.toList).isNone || (parse? bucket).any isAddressable

end Arn

end ObjectTransfer.S3
