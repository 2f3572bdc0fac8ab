import FrameGraph.Analysis.Timeline
import FrameGraph.RenderPass

/-!
# Attachments of a render pass

`RenderTarget` collects the attachments that the uses of a render pass declare, each view once.
When the timelines of the frame are known, `AttachmentUse.finish` decides for each attachment
whether its contents are loaded, cleared, stored or dropped.
-/

set_option autoImplicit false

namespace FrameGraph

/-- The part that an attachment plays in its subpass. -/
inductive AttachmentRole
  /-- It is drawn to. -/
  | output
  /-- Fragments read it. -/
  | input
  | shadingRate
  deriving DecidableEq

namespace AttachmentRole

def name : AttachmentRole → String
  | output => "Output"
  | input => "Input"
  | shadingRate => "ShadingRate"

def ofUse (use : Use) : AttachmentRole :=
  if use.isOutput then .output else if use.kind = .shadingRate then .shadingRate else .input

end AttachmentRole

/-- An attachment as its first use declares it. -/
structure AttachmentUse where
  /-- The name under which it is first declared. -/
  resource : String
  view : Handle .imageView
  role : AttachmentRole
  kind : UseKind
  format : Format
  samples : SampleCount
  /-- The position of the node on which its accesses are recorded. -/
  tracked : Nat
  deriving DecidableEq

/-- The attachments of a render pass, with the places in it that each has. Places are positions in
the list of attachments. -/
structure RenderTarget (α : Type) where
  pass : Nat
  attachments : List α := []
  color : List Nat := []
  depth : Option Nat := none
  input : List Nat := []
  shadingRate : Option Nat := none
  extent : Extent := ⟨0, 0⟩

namespace RenderTarget

/-! ## Collecting -/

/-- Adds a place to a list, once. -/
def addPlace (places : List Nat) (i : Nat) : List Nat :=
  if i ∈ places then places else places ++ [i]

/-- The place of an attachment among those collected: that of its view, or a new one. -/
def place (t : RenderTarget AttachmentUse) (a : AttachmentUse) : Nat :=
  (t.attachments.findIdx? (·.view == a.view)).getD t.attachments.length

/-- The attachments with `a` among them. -/
def withAttachment (t : RenderTarget AttachmentUse) (a : AttachmentUse) : List AttachmentUse :=
  if t.attachments.any (·.view == a.view) then t.attachments else t.attachments ++ [a]

/-- Adds a use of an attachment of the given size. The first attachment sets the size of the render
pass. A second depth attachment is a fault. -/
def add (t : RenderTarget AttachmentUse) (a : AttachmentUse) (extent : Extent) :
    Except Fault (RenderTarget AttachmentUse) :=
  let i := t.place a
  let attachments := t.withAttachment a
  let t := { t with
    attachments
    extent := if attachments.length = 1 then extent else t.extent }
  match a.role with
  | .output =>
    if a.kind.isDepthOrStencil then
      match t.depth with
      | some j =>
        if j = i then .ok t
        else
          .error (.twoDepthAttachments t.pass
            (((attachments[j]?).map (·.resource)).getD "") a.resource)
      | none => .ok { t with depth := some i }
    else .ok { t with color := addPlace t.color i }
  | .input => .ok { t with input := addPlace t.input i }
  | .shadingRate => .ok { t with shadingRate := some i }

/-- The same places with other attachments. -/
def map {α β : Type} (f : α → β) (t : RenderTarget α) : RenderTarget β :=
  { t with attachments := t.attachments.map f }

end RenderTarget

/-! ## Load and store operations -/

/-- An attachment with what happens to its contents. -/
structure Attachment extends AttachmentUse where
  loadOp : LoadOp
  storeOp : StoreOp
  stencilLoadOp : LoadOp
  stencilStoreOp : StoreOp
  initialLayout : ImageLayout
  finalLayout : ImageLayout
  /-- The layout within the pass. -/
  layout : ImageLayout
  deriving DecidableEq

namespace AttachmentUse

/-- The accesses that read what an attachment held before the pass. -/
def attachmentReads : AccessMask :=
  AccessMask.colorAttachmentRead ∪ AccessMask.depthStencilAttachmentRead ∪
    AccessMask.inputAttachmentRead

/-- Whether an attachment starts from cleared contents: it is drawn to for the first time in the
frame, nothing is kept from the frame before and nothing is read. -/
def isCleared (a : AttachmentUse) (residency : Residency) (position : Nat) (state : AccessState) :
    Bool :=
  a.role == .output && position == 0 && residency != .persistent &&
    !state.access.meets attachmentReads

/-- Whether an attachment's contents may be dropped after the pass: a depth output that no later
pass touches and no later frame needs. -/
def isDropped (a : AttachmentUse) (residency : Residency) (usedLater : Bool) : Bool :=
  a.role == .output && a.kind.isDepthOrStencil &&
    (residency == .transient || residency == .dontCare) && !usedLater

/-- An attachment whose image is used in no pass keeps its contents. -/
def idle (a : AttachmentUse) : Attachment where
  toAttachmentUse := a
  loadOp := .load
  storeOp := .store
  stencilLoadOp := .dontCare
  stencilStoreOp := .dontCare
  initialLayout := .undefined
  finalLayout := .undefined
  layout := .undefined

/-- What happens to an attachment's contents in a pass, given the timelines of the frame. -/
def finish (ts : List Timeline) (pass : Nat) (a : AttachmentUse) : Attachment :=
  match ts.find? (·.index == a.tracked) with
  | none => a.idle
  | some t =>
    match t.entries.findIdx? (·.pass == pass), t.stateAt? pass with
    | some position, some state =>
      let cleared := a.isCleared t.node.residency position state
      let dropped := a.isDropped t.node.residency (position + 1 < t.entries.length)
      let loadOp : LoadOp := if cleared then .clear else .load
      let storeOp : StoreOp := if dropped then .dontCare else .store
      { toAttachmentUse := a
        loadOp
        storeOp
        stencilLoadOp := if a.format.hasStencil then loadOp else .dontCare
        stencilStoreOp := if a.format.hasStencil then storeOp else .dontCare
        initialLayout := if cleared then .undefined else state.layout
        finalLayout := state.layout
        layout := state.layout }
    | _, _ => a.idle

end AttachmentUse

/-! ## Descriptions -/

def Attachment.desc (a : Attachment) : AttachmentDesc where
  format := a.format
  samples := a.samples
  loadOp := a.loadOp
  storeOp := a.storeOp
  stencilLoadOp := a.stencilLoadOp
  stencilStoreOp := a.stencilStoreOp
  initialLayout := a.initialLayout
  finalLayout := a.finalLayout

namespace RenderTarget

/-- A subpass's reference to the attachment at a place. -/
def ref (t : RenderTarget Attachment) (i : Nat) : AttachmentRef :=
  ⟨i, ((t.attachments[i]?).map (·.layout)).getD .undefined⟩

/-- The views drawn to, in attachment order. -/
def views (t : RenderTarget Attachment) : List (Handle .imageView) := t.attachments.map (·.view)

def renderPassDesc (t : RenderTarget Attachment) : RenderPassDesc :=
  .single (t.attachments.map (·.desc)) {
    input := t.input.map t.ref
    color := t.color.map t.ref
    depthStencil := t.depth.map t.ref
    shadingRate := t.shadingRate.map t.ref }

def framebufferDesc (t : RenderTarget Attachment) (renderPass : Handle .renderPass) :
    FramebufferDesc :=
  .ofViews renderPass t.extent t.views

end RenderTarget

end FrameGraph
