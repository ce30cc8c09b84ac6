import PanelLayout.Document
import PanelLayout.Drawing
import PanelLayout.Json.Reader
import PanelLayout.Listing
import PanelLayout.Preview.Page
import PanelLayout.Text.PercentCode

/-!
# Preview service

A service for a layout editor. It hands out the page of the editor, and answers a posted layout with
its listing or its drawing in a window of the posted size.

Bodies are read as JSON in front of the service: a body that cannot be read does not reach it. Half
of a surrogate pair that stands alone is among what `Json.ofText` does not read. Of a text with one
nothing is said here; such a text has no encoding, so that an answer with it cannot be sent.
-/

namespace PanelLayout

namespace Preview

inductive Method where
  | get
  /-- The body is the text of a JSON value. -/
  | post (body : String)

structure Request where
  /-- A path, perhaps with percent codes; a question mark and what follows it are looked over. -/
  path : String
  method : Method

/-- How a request is answered. -/
inductive Response where
  | page
  | listing (value : Json)
  | drawing (image : Markup)
  /-- The posted layout is at fault. -/
  | refused (e : LayoutError)
  /-- The service is at fault. -/
  | failed (e : LayoutError)
  | notFound
  | methodNotAllowed

/-- What a response carries. -/
inductive Content where
  | text (mediaType s : String)
  | json (value : Json)

def Response.status : Response → Nat
  | .page | .listing _ | .drawing _ => 200
  | .refused _ => 400
  | .notFound => 404
  | .methodNotAllowed => 405
  | .failed _ => 500

def Response.content? : Response → Option Content
  | .page => some (.text "text/html" pageText)
  | .listing v => some (.json v)
  | .drawing image => some (.text "image/svg+xml" image.render)
  | .refused e => some (.text "text/plain" e.message)
  | .failed _ | .notFound | .methodNotAllowed => none

def Content.mediaType : Content → String
  | .text mediaType _ => mediaType
  | .json _ => "application/json"

/-- Whether an error is blamed on the posted layout. -/
def isRefusal (e : LayoutError) : Bool :=
  match e.category with
  | .parse | .unresolved | .value | .type => true
  | .index | .overflow | .zeroDivision | .attribute | .place | .recursion => false

/-- A layout with the size of its window. -/
structure Job where
  layout : List (String × Json)
  width : Int
  height : Int

/-- The job that a body describes. A window is 640 pixels wide and 480 pixels high unless the body
says otherwise. -/
def Job.ofBody (body : Json) : Except LayoutError Job :=
  match body with
  | .object members =>
    match Json.get? members "layout" with
    | some (.object layout) => do
      let size (key : String) (default : Int) : Except LayoutError Int :=
        (((Json.get? members key).getD (.number (.int default))).toInt).mapError .conversion
      let width ← size "width" 640
      let height ← size "height" 480
      if width < 0 || height < 0 then throw (.previewSize width height)
      return ⟨layout, width, height⟩
    | _ => .error .requestShape
  | _ => .error .requestShape

/-- The layout pass of a job. -/
def Job.placements (job : Job) : Report (List Placement) := do
  let root ← Document.loadPanel (.object job.layout)
  root.layout (.ofInts 0 0 job.width job.height)

/-- Answers a posted value by what is made of its layout pass. -/
def answerValue (body : Json) (finish : Job → List Placement → Response) : Response :=
  let result := do
    let job ← Job.ofBody body
    return (job, ← job.placements.result)
  match result with
  | .ok (job, placements) => finish job placements
  | .error e => if isRefusal e then .refused e else .failed e

def answerPost (body : String) (finish : Job → List Placement → Response) :
    Except Json.FaultAt Response :=
  return answerValue (← Json.ofText body) finish

/-- The drawing of a layout pass. An error in drawing is not blamed on the layout. -/
def draw (job : Job) (placements : List Placement) : Response :=
  match Drawing.ofPlacements placements (.int job.width) (.int job.height) with
  | .ok image => .drawing image
  | .error e => .failed (.conversion (.number e))

/-- The path that a request asks for, without percent codes and with one slash in front. -/
def Request.plainPath (request : Request) : String :=
  let path := percentDecoded (request.path.toList.takeWhile (· != '?'))
  String.ofList ('/' :: path.dropWhile (· == '/'))

/-- Whether a path names a file of the page. There are none, but only a request to get one is not
found. -/
def isPageFile (path : String) : Bool :=
  let folder := "/static/"
  path.startsWith folder && !path.startsWith (folder ++ "/") && path != folder

/-- The answer to a request, unless a body has to be read and cannot be. -/
def answer (request : Request) : Except Json.FaultAt Response :=
  match request.plainPath, request.method with
  | "/", .get => return .page
  | "/rects.json", .post body =>
    answerPost body fun _ placements => .listing (Listing.json placements)
  | "/preview.svg", .post body => answerPost body draw
  | path, .get =>
    return if path ∈ ["/rects.json", "/preview.svg"] then .methodNotAllowed else .notFound
  | path, .post _ =>
    return if path = "/" || isPageFile path then .methodNotAllowed else .notFound

end Preview

end PanelLayout
