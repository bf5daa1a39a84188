import Unshield.Foundation.Unicode
import Unshield.Foundation.Buffer
import Unshield.Foundation.Packing
import Unshield.Foundation.Bits
import Unshield.Foundation.Procedure
import Unshield.Foundation.Block
import Unshield.Foundation.BlockStrings
import Unshield.Foundation.BlockStream
import Unshield.Foundation.Occurrence
import Unshield.Core.CabFile
import Unshield.Core.Md5
import Unshield.Core.Converter
import Unshield.Core.Names
import Unshield.Core.Environment
import Unshield.Core.Reader
import Unshield.Core.Uncompress
import Unshield.Core.Library
import Unshield.Core.Save
import Unshield.Foundation.GrowingArray
import Unshield.Foundation.LinkedNodes
import Unshield.Core.OpenCabinet
import Unshield.Foundation.Formatting
import Unshield.Foundation.Paths
import Unshield.Core.FileSystem
import Unshield.Core.OpenForReading
import Unshield.Core.ExtractFile
import Unshield.Foundation.SegmentedStream
import Unshield.Foundation.ReadingLoop
import Unshield.Foundation.Chain
import Unshield.Foundation.Handles
import Unshield.Foundation.Coupling
import Unshield.Foundation.Simulation
import Unshield.Core.Calls
import Unshield.Core.Clients
import Unshield.Core.TracedEnvironment
import Unshield.Core.WatchedEnvironment
import Unshield.Core.SharedFiles
import Unshield.Proofs.DescriptorCache
import Unshield.Foundation.Halting
import Unshield.Proofs.ReaderExits
import Unshield.Proofs.Messages
import Unshield.Proofs.ReaderSteps
import Unshield.Proofs.ReaderRefinement
import Unshield.Proofs.SaveSteps
import Unshield.Proofs.Layout
import Unshield.Proofs.VolumeFormat
import Unshield.Proofs.MessageDigest
import Unshield.Proofs.Md5Stream
import Unshield.Proofs.UncompressSteps
import Unshield.Proofs.Segmentation
import Unshield.Proofs.SaveNew
import Unshield.Proofs.ReaderFrame
import Unshield.Proofs.SaveFrame
import Unshield.Proofs.SaveOldStored
import Unshield.Proofs.PortionChunks
import Unshield.Proofs.SaveTurns
import Unshield.Proofs.SaveOldCompressed
import Unshield.Proofs.SplitReads
import Unshield.Proofs.SaveIntegrity
import Unshield.Proofs.SaveOldCuts
import Unshield.Proofs.SaveDigest
import Unshield.Proofs.DirectorySteps
import Unshield.Proofs.ConverterSteps
import Unshield.Foundation.LossyUtf8
import Unshield.Proofs.Utf8Reading
import Unshield.Proofs.ConverterRoundTrip
import Unshield.Proofs.ConverterBuffers
import Unshield.Proofs.ExtractionPath
import Unshield.Proofs.ExtractionFailure
import Unshield.Proofs.LinkChains
import Unshield.Foundation.TotalCorrectness
import Unshield.Foundation.CountedLoop
import Unshield.Proofs.FieldReads
import Unshield.Proofs.HeaderBounds
import Unshield.Proofs.OffsetLists
import Unshield.Proofs.EntryArrays
import Unshield.Proofs.FilenamePattern
import Unshield.Proofs.VolumeLookup
import Unshield.Proofs.HeaderLists
import Unshield.Proofs.VolumePortions
import Unshield.Proofs.GetterStability
import Unshield.Proofs.HandleLedgers
import Unshield.Proofs.HandleDiscipline
import Unshield.Proofs.HandleRelease
import Unshield.Proofs.Readers
import Unshield.Proofs.ReaderLockstep
import Unshield.Proofs.DryRuns
import Unshield.Proofs.HostSimulation
import Unshield.Proofs.WorldRefinement
import Unshield.Proofs.SaveEffects
import Unshield.Proofs.FileContents
import Unshield.Core.DeobfuscateTool
import Unshield.Foundation.Keystream
import Unshield.Proofs.Deobfuscation
import Unshield.Proofs.BoundedSearch
import Unshield.Core.LoggedEnvironment
import Unshield.Proofs.VolumeSearch
import Unshield.Proofs.LoopTermination
import Unshield.Proofs.DescriptorAssertions
import Unshield.Proofs.Generations
import Unshield.Proofs.NameEncoding
import Unshield.Proofs.HeaderFormat
import Unshield.Core.Actions
import Unshield.Proofs.NameReads
import Unshield.Proofs.HeaderRoundTrip
import Unshield.Proofs.OpenedAnswers
import Unshield.Proofs.ExitStatus
import Unshield.Core.ListFiles
import Unshield.Proofs.ListingBounds
import Unshield.Proofs.VolumeReads
import Unshield.Proofs.ChunkReads
import Unshield.Proofs.SaveCounters
import Unshield.Proofs.RemainingBytes
import Unshield.Proofs.FileSelection
import Unshield.Proofs.GroupIteration
import Unshield.Proofs.DirectoryCreation
import Unshield.Proofs.ExtractionRun
import Unshield.Proofs.ExtractAction
import Unshield.Proofs.PackedCabinet
import Unshield.Proofs.PackAndExtract
