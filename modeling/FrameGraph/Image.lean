import FrameGraph.Mask.Usage
import FrameGraph.Code.Format
import FrameGraph.Code.Enums

/-!
# Images and image views

`ImageDesc.defaultView` is the view through which an image is used when a pass names the image
itself.
-/

set_option autoImplicit false

namespace FrameGraph

/-- Width and height in texels. -/
structure Extent where
  width : Nat
  height : Nat
  deriving DecidableEq

/-- A run of mip levels or array layers. -/
structure LevelRange where
  base : Nat
  count : Nat
  deriving DecidableEq

/-- The part of an image that a view or a barrier covers. -/
structure SubresourceRange where
  aspect : Aspect
  levels : LevelRange
  layers : LevelRange
  deriving DecidableEq

/-- How an image is read. The image itself is not part of it: one description makes different
views of different images. Level and layer numbers take one byte each. -/
structure ImageViewDesc where
  format : Format
  viewType : ViewType
  aspect : Aspect
  levels : LevelRange
  layers : LevelRange
  deriving DecidableEq

namespace ImageViewDesc

/-- The largest level or layer number that a view can hold. -/
def maxLevel : Nat := 255

/-- A two-dimensional view of the first level and layer. -/
def twoD (format : Format) (aspect : Aspect) : ImageViewDesc :=
  ⟨format, .twoD, aspect, ⟨0, 1⟩, ⟨0, 1⟩⟩

def subresourceRange (v : ImageViewDesc) : SubresourceRange := ⟨v.aspect, v.levels, v.layers⟩

end ImageViewDesc

/-- What an image is created from. -/
structure ImageDesc where
  width : Nat := 1
  height : Nat := 1
  depth : Nat := 1
  mipLevels : Nat := 1
  arrayLayers : Nat := 1
  format : Format := .r8g8b8a8Unorm
  usage : ImageUsage := ImageUsage.sampled ∪ ImageUsage.storage
  samples : SampleCount := .one
  imageType : ImageType := .twoD
  deriving DecidableEq

namespace ImageDesc

/-- A two-dimensional image with one level, one layer and one sample. -/
def twoD (width height : Nat) (format : Format) (usage : ImageUsage) : ImageDesc :=
  { width, height, format, usage }

def aspect (d : ImageDesc) : Aspect := d.format.aspect

def extent (d : ImageDesc) : Extent := ⟨d.width, d.height⟩

/-- The view type that shows an image with that many layers. -/
def defaultViewType (imageType : ImageType) (arrayLayers : Nat) : ViewType :=
  if imageType = .oneD then if arrayLayers > 1 then .oneDArray else .oneD
  else if imageType = .threeD then .threeD
  else if arrayLayers > 1 then .twoDArray else .twoD

/-- The view of the whole image, as far as a view's level numbers reach. -/
def defaultView (d : ImageDesc) : ImageViewDesc where
  format := d.format
  viewType := defaultViewType d.imageType d.arrayLayers
  aspect := d.aspect
  levels := ⟨0, min d.mipLevels ImageViewDesc.maxLevel⟩
  layers := ⟨0, min d.arrayLayers ImageViewDesc.maxLevel⟩

end ImageDesc

end FrameGraph
