import VisionFlow.Lib.Ring
import VisionFlow.Lib.Runs
import VisionFlow.Lib.Memory
import VisionFlow.Common
import VisionFlow.BufQueue
import VisionFlow.BufPool
import VisionFlow.Framebuffer
import VisionFlow.FrameFile
import VisionFlow.Lib.Access
import VisionFlow.Conversion
import VisionFlow.ConversionMap
import VisionFlow.ConversionBounds
import VisionFlow.ConversionRoundTrips
import VisionFlow.FramebufferLayout
import VisionFlow.FrameBlocks
import VisionFlow.Lib.Oracle
import VisionFlow.Camera
import VisionFlow.CameraReports
import VisionFlow.CameraFrames
import VisionFlow.Units
import VisionFlow.Lib.Programs
import VisionFlow.Lifecycle
import VisionFlow.Lib.Places
import VisionFlow.Service
import VisionFlow.UnitSpecs
import VisionFlow.ServiceFrames
import VisionFlow.ServiceCommands
import VisionFlow.ServiceControl
import VisionFlow.ServiceInvariant
import VisionFlow.ServiceRuns
import VisionFlow.ServiceDelivery
import VisionFlow.ServiceLeaks
import VisionFlow.ServiceShutdown
import VisionFlow.ServiceStatus
import VisionFlow.Lib.Monitor
import VisionFlow.WakeUps
import VisionFlow.Lib.Search
import VisionFlow.Parser
import VisionFlow.ParserLayouts
import VisionFlow.ParserCuts
import VisionFlow.ParserPlaces
import VisionFlow.Lib.Paths
import VisionFlow.FileUnits
import VisionFlow.PackedFrames
import VisionFlow.Scenarios
import VisionFlow.ScenarioRuns
import VisionFlow.PipelineFailures
import VisionFlow.PipelineCreate
import VisionFlow.StreamReferences
import VisionFlow.ServiceRollBack
import VisionFlow.ControlPieces
import VisionFlow.Lib.CMemory
import VisionFlow.ParserMemory
import VisionFlow.ParserAccesses
import VisionFlow.ParserSafety
import VisionFlow.ParserLimit
import VisionFlow.FrameCopies
import VisionFlow.SplitOutput
import VisionFlow.SplitScenarios
import VisionFlow.ControlServer
import VisionFlow.Lib.Threads
import VisionFlow.FrameReferences
import VisionFlow.PoolMemory
import VisionFlow.FileStreams
import VisionFlow.UnitStats
import VisionFlow.StatsResponse
import VisionFlow.CameraMemory
import VisionFlow.Lib.InStep
import VisionFlow.CameraCalls
import VisionFlow.CameraBuffers
import VisionFlow.ScenarioEnds
import VisionFlow.Lib.Footprints
import VisionFlow.Lib.Fairness
import VisionFlow.ScenarioFiles
import VisionFlow.AllScenarios
import VisionFlow.CameraProgram
import VisionFlow.CameraProgramCode
import VisionFlow.CameraProgramRuns
import VisionFlow.CameraService
import VisionFlow.ServiceProgress
import VisionFlow.CameraFairness
import VisionFlow.CameraCallers
import VisionFlow.CameraEnds
import VisionFlow.CameraClients
import VisionFlow.CameraLives
import VisionFlow.Notifier
import VisionFlow.NotifierRuns
