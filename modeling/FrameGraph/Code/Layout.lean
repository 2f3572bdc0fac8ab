import FrameGraph.Code

/-!
# Image layouts

How the texels of an image are arranged while a command touches them.
-/

set_option autoImplicit false

namespace FrameGraph

abbrev ImageLayout := Code .layout

namespace ImageLayout

/-- The contents of the image are not kept. -/
def undefined : ImageLayout := ⟨0⟩
def general : ImageLayout := ⟨1⟩
def colorAttachment : ImageLayout := ⟨2⟩
def depthStencilAttachment : ImageLayout := ⟨3⟩
def depthStencilReadOnly : ImageLayout := ⟨4⟩
def shaderReadOnly : ImageLayout := ⟨5⟩
def transferSrc : ImageLayout := ⟨6⟩
def transferDst : ImageLayout := ⟨7⟩
def preinitialized : ImageLayout := ⟨8⟩
/-- The image may be shown by the presentation engine. -/
def presentSrc : ImageLayout := ⟨1000001002⟩
def shadingRateAttachment : ImageLayout := ⟨1000164003⟩
def depthAttachment : ImageLayout := ⟨1000241000⟩

/-- The names of the layouts, in the order of their numbers. -/
def names : List (ImageLayout × String) :=
  [(undefined, "UNDEFINED"), (general, "GENERAL"), (colorAttachment, "COLOR_ATTACHMENT_OPTIMAL"),
   (depthStencilAttachment, "DEPTH_STENCIL_ATTACHMENT_OPTIMAL"),
   (depthStencilReadOnly, "DEPTH_STENCIL_READ_ONLY_OPTIMAL"),
   (shaderReadOnly, "SHADER_READ_ONLY_OPTIMAL"), (transferSrc, "TRANSFER_SRC_OPTIMAL"),
   (transferDst, "TRANSFER_DST_OPTIMAL"), (preinitialized, "PREINITIALIZED"),
   (presentSrc, "PRESENT_SRC_KHR"), (⟨1000024000⟩, "VIDEO_DECODE_DST_KHR"),
   (⟨1000024001⟩, "VIDEO_DECODE_SRC_KHR"), (⟨1000024002⟩, "VIDEO_DECODE_DPB_KHR"),
   (⟨1000111000⟩, "SHARED_PRESENT_KHR"),
   (⟨1000117000⟩, "DEPTH_READ_ONLY_STENCIL_ATTACHMENT_OPTIMAL"),
   (⟨1000117001⟩, "DEPTH_ATTACHMENT_STENCIL_READ_ONLY_OPTIMAL"),
   (shadingRateAttachment, "FRAGMENT_SHADING_RATE_ATTACHMENT_OPTIMAL_KHR"),
   (⟨1000218000⟩, "FRAGMENT_DENSITY_MAP_OPTIMAL_EXT"), (⟨1000232000⟩, "RENDERING_LOCAL_READ_KHR"),
   (depthAttachment, "DEPTH_ATTACHMENT_OPTIMAL"), (⟨1000241001⟩, "DEPTH_READ_ONLY_OPTIMAL"),
   (⟨1000241002⟩, "STENCIL_ATTACHMENT_OPTIMAL"), (⟨1000241003⟩, "STENCIL_READ_ONLY_OPTIMAL"),
   (⟨1000299000⟩, "VIDEO_ENCODE_DST_KHR"), (⟨1000299001⟩, "VIDEO_ENCODE_SRC_KHR"),
   (⟨1000299002⟩, "VIDEO_ENCODE_DPB_KHR"), (⟨1000314000⟩, "READ_ONLY_OPTIMAL"),
   (⟨1000314001⟩, "ATTACHMENT_OPTIMAL"), (⟨1000339000⟩, "ATTACHMENT_FEEDBACK_LOOP_OPTIMAL_EXT")]

def name (l : ImageLayout) : String := l.text names

end ImageLayout

end FrameGraph
