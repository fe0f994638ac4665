import MagiskBuild.FileTree
import MagiskBuild.Text
import MagiskBuild.Props
import MagiskBuild.BinaryDump
import MagiskBuild.Process
import MagiskBuild.Effects
import MagiskBuild.Config
import MagiskBuild.Headers
import MagiskBuild.Binary
import MagiskBuild.Relocate
import MagiskBuild.Cleanup
import MagiskBuild.BuildEffects
import MagiskBuild.App
import MagiskBuild.Runs
import MagiskBuild.Sources
import MagiskBuild.Compose
import MagiskBuild.Trace
import MagiskBuild.Emulator
