import FrameGraph.Code
import FrameGraph.Mask.Usage

/-!
# Texel formats

The formats that the library reasons about, the parts of a texel (`Format.aspect`), and the text of
a format (`Format.name`).
-/

set_option autoImplicit false

namespace FrameGraph

abbrev Format := Code .format

namespace Format

def r8Unorm : Format := ⟨9⟩
def r8g8b8a8Unorm : Format := ⟨37⟩
def r8g8b8a8Snorm : Format := ⟨38⟩
def b8g8r8a8Unorm : Format := ⟨44⟩
def r16Sfloat : Format := ⟨76⟩
def r16g16Sfloat : Format := ⟨83⟩
def r16g16b16a16Sfloat : Format := ⟨97⟩
def r32Uint : Format := ⟨98⟩
def r32Sint : Format := ⟨99⟩
def r32Sfloat : Format := ⟨100⟩
def r32g32Sfloat : Format := ⟨103⟩
def r32g32b32a32Sfloat : Format := ⟨109⟩
def b10g11r11Ufloat : Format := ⟨122⟩
def d16Unorm : Format := ⟨124⟩
def x8d24Unorm : Format := ⟨125⟩
def d32Sfloat : Format := ⟨126⟩
def s8Uint : Format := ⟨127⟩
def d16UnormS8Uint : Format := ⟨128⟩
def d24UnormS8Uint : Format := ⟨129⟩
def d32SfloatS8Uint : Format := ⟨130⟩

/-- The parts of a texel: depth and stencil formats have those, all others have color. -/
def aspect (f : Format) : Aspect :=
  if f ∈ [d16Unorm, d32Sfloat, x8d24Unorm] then .depth
  else if f = s8Uint then .stencil
  else if f ∈ [d16UnormS8Uint, d24UnormS8Uint, d32SfloatS8Uint] then Aspect.depth ∪ Aspect.stencil
  else .color

def isDepthOrStencil (f : Format) : Bool := f.aspect.meets (Aspect.depth ∪ Aspect.stencil)

def hasStencil (f : Format) : Bool := decide (Aspect.stencil ⊆ f.aspect)

/-- The names of the core formats, in the order of their numbers from zero. -/
def coreNames : List String :=
  ["UNDEFINED", "R4G4_UNORM_PACK8", "R4G4B4A4_UNORM_PACK16", "B4G4R4A4_UNORM_PACK16",
   "R5G6B5_UNORM_PACK16", "B5G6R5_UNORM_PACK16", "R5G5B5A1_UNORM_PACK16",
   "B5G5R5A1_UNORM_PACK16", "A1R5G5B5_UNORM_PACK16", "R8_UNORM", "R8_SNORM", "R8_USCALED",
   "R8_SSCALED", "R8_UINT", "R8_SINT", "R8_SRGB", "R8G8_UNORM", "R8G8_SNORM", "R8G8_USCALED",
   "R8G8_SSCALED", "R8G8_UINT", "R8G8_SINT", "R8G8_SRGB", "R8G8B8_UNORM", "R8G8B8_SNORM",
   "R8G8B8_USCALED", "R8G8B8_SSCALED", "R8G8B8_UINT", "R8G8B8_SINT", "R8G8B8_SRGB",
   "B8G8R8_UNORM", "B8G8R8_SNORM", "B8G8R8_USCALED", "B8G8R8_SSCALED", "B8G8R8_UINT",
   "B8G8R8_SINT", "B8G8R8_SRGB", "R8G8B8A8_UNORM", "R8G8B8A8_SNORM", "R8G8B8A8_USCALED",
   "R8G8B8A8_SSCALED", "R8G8B8A8_UINT", "R8G8B8A8_SINT", "R8G8B8A8_SRGB", "B8G8R8A8_UNORM",
   "B8G8R8A8_SNORM", "B8G8R8A8_USCALED", "B8G8R8A8_SSCALED", "B8G8R8A8_UINT", "B8G8R8A8_SINT",
   "B8G8R8A8_SRGB", "A8B8G8R8_UNORM_PACK32", "A8B8G8R8_SNORM_PACK32", "A8B8G8R8_USCALED_PACK32",
   "A8B8G8R8_SSCALED_PACK32", "A8B8G8R8_UINT_PACK32", "A8B8G8R8_SINT_PACK32",
   "A8B8G8R8_SRGB_PACK32", "A2R10G10B10_UNORM_PACK32", "A2R10G10B10_SNORM_PACK32",
   "A2R10G10B10_USCALED_PACK32", "A2R10G10B10_SSCALED_PACK32", "A2R10G10B10_UINT_PACK32",
   "A2R10G10B10_SINT_PACK32", "A2B10G10R10_UNORM_PACK32", "A2B10G10R10_SNORM_PACK32",
   "A2B10G10R10_USCALED_PACK32", "A2B10G10R10_SSCALED_PACK32", "A2B10G10R10_UINT_PACK32",
   "A2B10G10R10_SINT_PACK32", "R16_UNORM", "R16_SNORM", "R16_USCALED", "R16_SSCALED", "R16_UINT",
   "R16_SINT", "R16_SFLOAT", "R16G16_UNORM", "R16G16_SNORM", "R16G16_USCALED", "R16G16_SSCALED",
   "R16G16_UINT", "R16G16_SINT", "R16G16_SFLOAT", "R16G16B16_UNORM", "R16G16B16_SNORM",
   "R16G16B16_USCALED", "R16G16B16_SSCALED", "R16G16B16_UINT", "R16G16B16_SINT",
   "R16G16B16_SFLOAT", "R16G16B16A16_UNORM", "R16G16B16A16_SNORM", "R16G16B16A16_USCALED",
   "R16G16B16A16_SSCALED", "R16G16B16A16_UINT", "R16G16B16A16_SINT", "R16G16B16A16_SFLOAT",
   "R32_UINT", "R32_SINT", "R32_SFLOAT", "R32G32_UINT", "R32G32_SINT", "R32G32_SFLOAT",
   "R32G32B32_UINT", "R32G32B32_SINT", "R32G32B32_SFLOAT", "R32G32B32A32_UINT",
   "R32G32B32A32_SINT", "R32G32B32A32_SFLOAT", "R64_UINT", "R64_SINT", "R64_SFLOAT",
   "R64G64_UINT", "R64G64_SINT", "R64G64_SFLOAT", "R64G64B64_UINT", "R64G64B64_SINT",
   "R64G64B64_SFLOAT", "R64G64B64A64_UINT", "R64G64B64A64_SINT", "R64G64B64A64_SFLOAT",
   "B10G11R11_UFLOAT_PACK32", "E5B9G9R9_UFLOAT_PACK32", "D16_UNORM", "X8_D24_UNORM_PACK32",
   "D32_SFLOAT", "S8_UINT", "D16_UNORM_S8_UINT", "D24_UNORM_S8_UINT", "D32_SFLOAT_S8_UINT",
   "BC1_RGB_UNORM_BLOCK", "BC1_RGB_SRGB_BLOCK", "BC1_RGBA_UNORM_BLOCK", "BC1_RGBA_SRGB_BLOCK",
   "BC2_UNORM_BLOCK", "BC2_SRGB_BLOCK", "BC3_UNORM_BLOCK", "BC3_SRGB_BLOCK", "BC4_UNORM_BLOCK",
   "BC4_SNORM_BLOCK", "BC5_UNORM_BLOCK", "BC5_SNORM_BLOCK", "BC6H_UFLOAT_BLOCK",
   "BC6H_SFLOAT_BLOCK", "BC7_UNORM_BLOCK", "BC7_SRGB_BLOCK", "ETC2_R8G8B8_UNORM_BLOCK",
   "ETC2_R8G8B8_SRGB_BLOCK", "ETC2_R8G8B8A1_UNORM_BLOCK", "ETC2_R8G8B8A1_SRGB_BLOCK",
   "ETC2_R8G8B8A8_UNORM_BLOCK", "ETC2_R8G8B8A8_SRGB_BLOCK", "EAC_R11_UNORM_BLOCK",
   "EAC_R11_SNORM_BLOCK", "EAC_R11G11_UNORM_BLOCK", "EAC_R11G11_SNORM_BLOCK",
   "ASTC_4X4_UNORM_BLOCK", "ASTC_4X4_SRGB_BLOCK", "ASTC_5X4_UNORM_BLOCK", "ASTC_5X4_SRGB_BLOCK",
   "ASTC_5X5_UNORM_BLOCK", "ASTC_5X5_SRGB_BLOCK", "ASTC_6X5_UNORM_BLOCK", "ASTC_6X5_SRGB_BLOCK",
   "ASTC_6X6_UNORM_BLOCK", "ASTC_6X6_SRGB_BLOCK", "ASTC_8X5_UNORM_BLOCK", "ASTC_8X5_SRGB_BLOCK",
   "ASTC_8X6_UNORM_BLOCK", "ASTC_8X6_SRGB_BLOCK", "ASTC_8X8_UNORM_BLOCK", "ASTC_8X8_SRGB_BLOCK",
   "ASTC_10X5_UNORM_BLOCK", "ASTC_10X5_SRGB_BLOCK", "ASTC_10X6_UNORM_BLOCK",
   "ASTC_10X6_SRGB_BLOCK", "ASTC_10X8_UNORM_BLOCK", "ASTC_10X8_SRGB_BLOCK",
   "ASTC_10X10_UNORM_BLOCK", "ASTC_10X10_SRGB_BLOCK", "ASTC_12X10_UNORM_BLOCK",
   "ASTC_12X10_SRGB_BLOCK", "ASTC_12X12_UNORM_BLOCK", "ASTC_12X12_SRGB_BLOCK"]

/-- The names of the PVRTC formats. -/
def pvrtcNames : List String :=
  ["PVRTC1_2BPP_UNORM_BLOCK_IMG", "PVRTC1_4BPP_UNORM_BLOCK_IMG", "PVRTC2_2BPP_UNORM_BLOCK_IMG",
   "PVRTC2_4BPP_UNORM_BLOCK_IMG", "PVRTC1_2BPP_SRGB_BLOCK_IMG", "PVRTC1_4BPP_SRGB_BLOCK_IMG",
   "PVRTC2_2BPP_SRGB_BLOCK_IMG", "PVRTC2_4BPP_SRGB_BLOCK_IMG"]

/-- The names of the ASTC formats with floating point texels. -/
def astcFloatNames : List String :=
  ["ASTC_4X4_SFLOAT_BLOCK", "ASTC_5X4_SFLOAT_BLOCK", "ASTC_5X5_SFLOAT_BLOCK",
   "ASTC_6X5_SFLOAT_BLOCK", "ASTC_6X6_SFLOAT_BLOCK", "ASTC_8X5_SFLOAT_BLOCK",
   "ASTC_8X6_SFLOAT_BLOCK", "ASTC_8X8_SFLOAT_BLOCK", "ASTC_10X5_SFLOAT_BLOCK",
   "ASTC_10X6_SFLOAT_BLOCK", "ASTC_10X8_SFLOAT_BLOCK", "ASTC_10X10_SFLOAT_BLOCK",
   "ASTC_12X10_SFLOAT_BLOCK", "ASTC_12X12_SFLOAT_BLOCK"]

/-- The names of the formats whose texels hold luma and chroma, in one plane or several. -/
def ycbcrNames : List String :=
  ["G8B8G8R8_422_UNORM", "B8G8R8G8_422_UNORM", "G8_B8_R8_3PLANE_420_UNORM",
   "G8_B8R8_2PLANE_420_UNORM", "G8_B8_R8_3PLANE_422_UNORM", "G8_B8R8_2PLANE_422_UNORM",
   "G8_B8_R8_3PLANE_444_UNORM", "R10X6_UNORM_PACK16", "R10X6G10X6_UNORM_2PACK16",
   "R10X6G10X6B10X6A10X6_UNORM_4PACK16", "G10X6B10X6G10X6R10X6_422_UNORM_4PACK16",
   "B10X6G10X6R10X6G10X6_422_UNORM_4PACK16", "G10X6_B10X6_R10X6_3PLANE_420_UNORM_3PACK16",
   "G10X6_B10X6R10X6_2PLANE_420_UNORM_3PACK16", "G10X6_B10X6_R10X6_3PLANE_422_UNORM_3PACK16",
   "G10X6_B10X6R10X6_2PLANE_422_UNORM_3PACK16", "G10X6_B10X6_R10X6_3PLANE_444_UNORM_3PACK16",
   "R12X4_UNORM_PACK16", "R12X4G12X4_UNORM_2PACK16", "R12X4G12X4B12X4A12X4_UNORM_4PACK16",
   "G12X4B12X4G12X4R12X4_422_UNORM_4PACK16", "B12X4G12X4R12X4G12X4_422_UNORM_4PACK16",
   "G12X4_B12X4_R12X4_3PLANE_420_UNORM_3PACK16", "G12X4_B12X4R12X4_2PLANE_420_UNORM_3PACK16",
   "G12X4_B12X4_R12X4_3PLANE_422_UNORM_3PACK16", "G12X4_B12X4R12X4_2PLANE_422_UNORM_3PACK16",
   "G12X4_B12X4_R12X4_3PLANE_444_UNORM_3PACK16", "G16B16G16R16_422_UNORM",
   "B16G16R16G16_422_UNORM", "G16_B16_R16_3PLANE_420_UNORM", "G16_B16R16_2PLANE_420_UNORM",
   "G16_B16_R16_3PLANE_422_UNORM", "G16_B16R16_2PLANE_422_UNORM", "G16_B16_R16_3PLANE_444_UNORM"]

/-- The names of the formats with chroma in a plane of its own, at full resolution. -/
def twoPlaneNames : List String :=
  ["G8_B8R8_2PLANE_444_UNORM", "G10X6_B10X6R10X6_2PLANE_444_UNORM_3PACK16",
   "G12X4_B12X4R12X4_2PLANE_444_UNORM_3PACK16", "G16_B16R16_2PLANE_444_UNORM"]

/-- The names of all formats, in runs of consecutive numbers from the one given. -/
def nameRuns : List (Int × List String) :=
  [(0, coreNames), (1000054000, pvrtcNames), (1000066000, astcFloatNames),
   (1000156000, ycbcrNames), (1000330000, twoPlaneNames),
   (1000340000, ["A4R4G4B4_UNORM_PACK16", "A4B4G4R4_UNORM_PACK16"]),
   (1000464000, ["R16G16_S10_5_NV"]),
   (1000470000, ["A1B5G5R5_UNORM_PACK16_KHR", "A8_UNORM_KHR"])]

/-- The name of a format, and the number of one that has none. -/
def name (f : Format) : String :=
  (nameRuns.findSome? fun (first, names) =>
    if first ≤ f.number then names[(f.number - first).toNat]? else none).getD (toString f.number)

end Format

end FrameGraph
