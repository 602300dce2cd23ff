import CelestiaCore.Types.Basic
import CelestiaCore.Types.BlockID
import CelestiaCore.Types.BlockIDKey
import CelestiaCore.Types.CommitSig
import CelestiaCore.Types.Commit
import CelestiaCore.Types.CommitCodec
import CelestiaCore.Types.ExtendedCommitWrap
import CelestiaCore.Types.Block
import CelestiaCore.Types.BlockCodec
import CelestiaCore.Types.BlockHash
import CelestiaCore.Types.MaxBytes
import CelestiaCore.StateSync.Messages
import CelestiaCore.StateSync.Reactor
import CelestiaCore.StateSync.ReactorInvariant
import CelestiaCore.StateSync.Session
import CelestiaCore.StateSync.Progress
import CelestiaCore.StateSync.SessionProtocol
import CelestiaCore.StateSync.Termination
import CelestiaCore.StateSync.Receive
import CelestiaCore.P2P.Errors
