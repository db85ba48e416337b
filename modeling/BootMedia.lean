import BootMedia.Main
import BootMedia.Proofs.Flags
import BootMedia.Proofs.Invocation.Command
import BootMedia.Proofs.Invocation.Hermetic
import BootMedia.Proofs.Invocation.Steps
import BootMedia.Proofs.Pipeline
import BootMedia.Proofs.Execution
import BootMedia.Proofs.CommandLine.Run
import BootMedia.Proofs.CommandLine.Spelling
import BootMedia.Proofs.CommandLine.Arguments
import BootMedia.Proofs.Emulator.Drive
import BootMedia.Proofs.Emulator.Arguments
import BootMedia.Proofs.FileSystem.Tree
import BootMedia.Proofs.FileSystem.Walk
import BootMedia.Proofs.FileSystem.Call
import BootMedia.Proofs.FileSystem.Links
import BootMedia.Proofs.FileSystem.Effect
import BootMedia.Proofs.Publish
import BootMedia.Proofs.Delivery
import BootMedia.Proofs.Workspace
import BootMedia.Proofs.History
import BootMedia.Proofs.Preflight.Images
import BootMedia.Proofs.FileSystem.Way
import BootMedia.Proofs.Invocation.TargetPath
import BootMedia.Proofs.Invocation.Display
import BootMedia.Proofs.PublishFailure
import BootMedia.Proofs.Text.Octets
import BootMedia.Proofs.Text.Quoted
import BootMedia.Proofs.Host.Search
import BootMedia.Proofs.Preflight.Tool
import BootMedia.Proofs.Host.Start
import BootMedia.Proofs.Interleaving
import BootMedia.Proofs.Outputs
import BootMedia.Proofs.Scene
import BootMedia.Proofs.ConcurrentPublish
import BootMedia.Proofs.Flags.Display
import BootMedia.Proofs.Preflight.Lookup
import BootMedia.Proofs.Request.Names
import BootMedia.Proofs.Invocation.Assignments
import BootMedia.Proofs.Preflight.Report
