import FrameGraph.Pipeline
import FrameGraph.Barrier
import FrameGraph.RenderPass
import FrameGraph.Text.Quoted
import FrameGraph.Text.Blank
import FrameGraph.Text.Numeral
import FrameGraph.Text.Split
import FrameGraph.Text.Utf8
import FrameGraph.Trace
import FrameGraph.Shader.Stage
import FrameGraph.Shader.SourceScan
import FrameGraph.Shader.Binding
import FrameGraph.Device.Headless
import FrameGraph.Device.ObjectCache
import FrameGraph.Resource.Mount
import FrameGraph.Shader.Registry
import FrameGraph.Analysis.Basic
import FrameGraph.Plan.Dump
import FrameGraph.Toml.Document
import FrameGraph.Settings
import FrameGraph.Sample.Frame
import FrameGraph.Sample.Run
import FrameGraph.Sample.Shaders
import FrameGraph.Main
import FrameGraph.Proofs.Outcomes
import FrameGraph.Proofs.Reduction
import FrameGraph.Proofs.Timelines
import FrameGraph.Proofs.Declarations
import FrameGraph.Proofs.Frames
import FrameGraph.Proofs.Hazards
import FrameGraph.Proofs.Operations
import FrameGraph.Proofs.WriteOrder
import FrameGraph.Proofs.Layouts
import FrameGraph.Proofs.World
import FrameGraph.Proofs.HeadlessImages
import FrameGraph.Proofs.LayoutReplay
import FrameGraph.Proofs.Hierarchies
import FrameGraph.Proofs.WellFormed
import FrameGraph.Proofs.Carried
import FrameGraph.Proofs.Retained
import FrameGraph.Proofs.Splitting
import FrameGraph.Proofs.PushedAccesses
import FrameGraph.Proofs.SteadyState
import FrameGraph.Proofs.Objects
import FrameGraph.Proofs.Ownership
import FrameGraph.Proofs.Compiling
import FrameGraph.Proofs.Runs
import FrameGraph.Proofs.Balance
import FrameGraph.Proofs.ReleaseOrder
import FrameGraph.Proofs.Seats
import FrameGraph.Proofs.Sessions
import FrameGraph.Proofs.CarriedStates
import FrameGraph.Proofs.Caching
import FrameGraph.Proofs.Recompiling
import FrameGraph.Proofs.Collecting
import FrameGraph.Proofs.Attachments
import FrameGraph.Proofs.LoadedShaders
import FrameGraph.Proofs.Recording
import FrameGraph.Proofs.HeldViews
import FrameGraph.Proofs.Framebuffers
import FrameGraph.Proofs.Walks
import FrameGraph.Proofs.Kinship
import FrameGraph.Proofs.Lives
import FrameGraph.Proofs.WellBuilt
import FrameGraph.Proofs.Sharing
import FrameGraph.Proofs.Aliases
import FrameGraph.Proofs.Records
import FrameGraph.Proofs.Independence
import FrameGraph.Proofs.SupportedAccesses
import FrameGraph.Proofs.ValidBarriers
import FrameGraph.Proofs.PermittedAccesses
import FrameGraph.Proofs.Presentation
import FrameGraph.Proofs.FailedCompiles
import FrameGraph.Proofs.ShaderPaths
import FrameGraph.Proofs.ShaderCompiles
import FrameGraph.Proofs.ShaderHistories
import FrameGraph.Proofs.SampleShaders
import FrameGraph.Proofs.Mounting
import FrameGraph.Proofs.Unfolding
import FrameGraph.Proofs.Holdings
import FrameGraph.Proofs.Plans
import FrameGraph.Proofs.Groups
import FrameGraph.Proofs.SampleMounts
import FrameGraph.Proofs.Tallies
import FrameGraph.Proofs.SampleResources
import FrameGraph.Proofs.SampleForest
import FrameGraph.Proofs.SampleStart
import FrameGraph.Proofs.SampleUses
import FrameGraph.Proofs.SampleTimelines
import FrameGraph.Proofs.SampleTargets
import FrameGraph.Proofs.SampleObjects
import FrameGraph.Proofs.SampleFrames
import FrameGraph.Proofs.SampleRelease
import FrameGraph.Proofs.SampleRun
import FrameGraph.Proofs.References
import FrameGraph.Proofs.Views
import FrameGraph.Proofs.Descriptions
import FrameGraph.Proofs.Formats
import FrameGraph.Proofs.Contents
import FrameGraph.Proofs.Coherence
import FrameGraph.Proofs.Extents
import FrameGraph.Proofs.AttachmentKinds
import FrameGraph.Proofs.Multisampling
import FrameGraph.Proofs.Histories
import FrameGraph.Proofs.RefusedMounts
import FrameGraph.Proofs.Expiry
import FrameGraph.Proofs.Lookups
import FrameGraph.Proofs.WholeTrees
import FrameGraph.Proofs.SwapchainImages
import FrameGraph.Proofs.Renderings
import FrameGraph.Proofs.ForeignSets
import FrameGraph.Proofs.ResolvedBindings
import FrameGraph.Proofs.AtomicLoads
import FrameGraph.Proofs.AgreeingSlots
import FrameGraph.Proofs.ElementNames
import FrameGraph.Proofs.LayoutRenderings
import FrameGraph.Proofs.DefaultViews
import FrameGraph.Proofs.BufferSizes
import FrameGraph.Proofs.Comments
import FrameGraph.Proofs.MaskTexts
import FrameGraph.Proofs.PlainMasks
import FrameGraph.Proofs.DumpedMasks
