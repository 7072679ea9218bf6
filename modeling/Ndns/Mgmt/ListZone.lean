import Ndns.Clients.ResponseRoundTrip
import Ndns.Mgmt.ManagementTool

/-!
# Listing a Zone

`listZone` reads the packets of all rows twice: once for the widths of the columns and once to print
them.  The second loop prints as many lines for a record as its response has elements, except for
the content types that are printed as one.  The listing is a list of pieces here; padding and the
text of names are left out, and the text of a certificate is the library's.
-/

namespace Ndns.Mgmt

open Ndn Calls Daemon Clients

/-- Why a listing does not end normally: a decoding exception, an access of a missing element,
`BOOST_ASSERT(iteration == 1)`, or an exception of the certificate that is printed. -/
inductive ListingFault where
  | malformed
  | outOfRange
  | assertion
  | certificate
deriving DecidableEq

/-- What stands in a line behind the label, the time to live and the type. -/
inductive Field where
  | text (string : Blob)
  | ndnsAuth
  | delegations (names : List Name)
  | base64 (bytes : Blob)
deriving DecidableEq

/-- The pieces of a listing.  A raw record has no field: its line goes on with the content type. -/
inductive Piece where
  | zone (zoneName : Name)
  | rrset (label : Name) (type version : Component) (signatureInfo : Blob)
  | record (label : Name) (ttl : ℤ) (type : Component) (field : Option Field)
  | content (contentType : NdnsContentType) (version : Component) (signatureInfo : Blob)
  | certificate (text : String)
  | appContent (value : Blob)
deriving DecidableEq

variable [PacketFormat]

namespace ManagementTool

/-- What the loops read of a row: `Data data(rrset.getData())` and `re.fromData(zoneName, data)`. -/
def readRrset (zoneName : Name) (rrset : Rrset) : Except ListingFault (Data × Response) :=
  match PacketFormat.decode rrset.data with
  | none => .error .malformed
  | some data =>
      match Response.default.fromData zoneName data with
      | .error .outOfBounds => .error .outOfRange
      | .error .malformed => .error .malformed
      | .ok (_, re) => .ok (data, re)

/-- The number of lines of a record. -/
def iteration (re : Response) : ℕ :=
  if re.contentType = .blob ∨ re.contentType = .key ∨ re.contentType = .auth then 1
  else re.rrs.length

/-- An element of the response. -/
def rrAt (re : Response) (index : ℕ) : Except ListingFault Block :=
  match re.rrs[index]? with
  | none => .error .outOfRange
  | some block => .ok block

/-- The body of the inner loop behind the columns. -/
def listField (rrset : Rrset) (re : Response) (index : ℕ) :
    Except ListingFault (Option Field) :=
  if re.contentType ≠ .blob ∧ re.contentType ≠ .key then
    if rrset.type = Label.txtRrType then
      (rrAt re index).map fun block ↦ some (.text block.value)
    else if rrset.type = Label.nsRrType then
      if iteration re ≠ 1 then .error .assertion
      else if re.contentType = .auth then .ok (some .ndnsAuth)
      else
        match (PacketFormat.decode rrset.data).bind linkDelegations with
        | none => .error .malformed
        | some names => .ok (some (.delegations names))
    else (rrAt re index).map fun block ↦ some (.base64 block.encode)
  else .ok none

/-- The lines of a record. -/
def listLines (rrset : Rrset) (re : Response) : Except ListingFault (List Piece) :=
  (List.range (iteration re)).mapM fun index ↦
    (listField rrset re index).map (.record rrset.label rrset.ttl rrset.type)

/-- The end of a raw record: its content type and, when it was asked for, its content. -/
def listContent (certificateText : Block → Option String) (printRaw : Bool) (rrset : Rrset)
    (data : Data) (re : Response) : Except ListingFault (List Piece) :=
  let line := Piece.content re.contentType rrset.version data.signatureInfo
  if printRaw then
    if re.rrType = Label.certRrType then
      match certificateText rrset.data with
      | none => .error .certificate
      | some text => .ok [line, .certificate text]
    else .ok [line, .appContent re.appContent]
  else .ok [line]

/-- The body of the outer loop. -/
def listRrset (certificateText : Block → Option String) (printRaw : Bool) (rrset : Rrset)
    (data : Data) (re : Response) : Except ListingFault (List Piece) := do
  let lines ← listLines rrset re
  if re.contentType ≠ .blob ∧ re.contentType ≠ .key then
    pure (.rrset rrset.label rrset.type rrset.version data.signatureInfo :: lines)
  else do
    let content ← listContent certificateText printRaw rrset data re
    pure (lines ++ content)

/-- Both loops of `listZone`. -/
def listRrsets (certificateText : Block → Option String) (zoneName : Name) (printRaw : Bool)
    (rrsets : List Rrset) : Except ListingFault (List Piece) := do
  let responses ← rrsets.mapM fun rrset ↦ (readRrset zoneName rrset).map (rrset, ·)
  let pieces ← responses.mapM fun (rrset, data, re) ↦
    listRrset certificateText printRaw rrset data re
  pure (.zone zoneName :: pieces.flatten)

/-- `ManagementTool::listZone`. -/
def listZone (certificateText : Block → Option String) (zoneName : Name) (printRaw : Bool) :
    Prog (Except ListingFault (List Piece)) := do
  let zone ← DbMgr.findZone (Zone.named zoneName)
  require (zone.id ≠ 0) (.managementToolError "is not found in the database" zoneName)
  let rrsets ← DbMgr.findRrsets zone
  pure (listRrsets certificateText zoneName printRaw rrsets)

end ManagementTool

end Ndns.Mgmt
