import ScriptEngine.CodeBlock.Builder
import ScriptEngine.FileTree
import ScriptEngine.Host.Callables
import ScriptEngine.Host.TableCompiler
import ScriptEngine.HostValue
import ScriptEngine.Main
import ScriptEngine.Proofs.Decoding
import ScriptEngine.Proofs.InstructionWords
import ScriptEngine.Proofs.ValidBlock
import ScriptEngine.Proofs.WellFormed
import ScriptEngine.Proofs.ValidationReads
import ScriptEngine.Proofs.LabelResolution
import ScriptEngine.Proofs.Assembly
import ScriptEngine.Proofs.AssembledCode
import ScriptEngine.Proofs.InstructionEffect
import ScriptEngine.Proofs.CheckedStep
import ScriptEngine.Proofs.WorldChange
import ScriptEngine.Proofs.Transition
import ScriptEngine.Proofs.BlockStep
import ScriptEngine.Proofs.CheckedRun
import ScriptEngine.Proofs.LockFree
import ScriptEngine.Proofs.LockBalance
import ScriptEngine.Proofs.Ledger
import ScriptEngine.Proofs.ArenaOperations
import ScriptEngine.Proofs.ArenaHistory
import ScriptEngine.Proofs.References
import ScriptEngine.Proofs.Session
import ScriptEngine.Proofs.CborRoundTrip
import ScriptEngine.Proofs.CanonicalForm
import ScriptEngine.Proofs.WireRoundTrip
import ScriptEngine.Proofs.ContentHash
import ScriptEngine.Proofs.ItemLimits
import ScriptEngine.Proofs.Reencoding
import ScriptEngine.Proofs.FrameSetup
import ScriptEngine.Proofs.Delivery
import ScriptEngine.Proofs.FrameContents
import ScriptEngine.Proofs.FrameEffects
import ScriptEngine.Proofs.SessionMoves
import ScriptEngine.Proofs.ChainFamily
import ScriptEngine.Proofs.SharedStorage
import ScriptEngine.Proofs.StoreHistory
import ScriptEngine.Proofs.FrameBacking
import ScriptEngine.Proofs.ChainRequests
import ScriptEngine.Proofs.SharedAccess
import ScriptEngine.Proofs.TreeGrowth
import ScriptEngine.Proofs.FilledBlocks
import ScriptEngine.Proofs.FilledRuns
import ScriptEngine.Proofs.StoredRuns
import ScriptEngine.Proofs.StoreFrame
import ScriptEngine.Proofs.CacheTransparency
import ScriptEngine.Proofs.Turns
import ScriptEngine.Proofs.Traces
import ScriptEngine.Proofs.RegisterFrames
import ScriptEngine.Proofs.ClassChains
import ScriptEngine.Proofs.MemberProtection
import ScriptEngine.Proofs.MemberWrites
import ScriptEngine.Proofs.Settling
import ScriptEngine.Proofs.ProxyShadowing
import ScriptEngine.Proofs.MemberCalls
import ScriptEngine.Proofs.OwnMembers
import ScriptEngine.Proofs.FunctionMembers
import ScriptEngine.Proofs.AttributeHistory
import ScriptEngine.Proofs.NumberOrder
import ScriptEngine.Proofs.ValueComparison
import ScriptEngine.Proofs.DecimalText
import ScriptEngine.Proofs.DecimalRounding
import ScriptEngine.Proofs.RealText
import ScriptEngine.Proofs.IntegerDivision
import ScriptEngine.Proofs.CheckedStates
import ScriptEngine.Proofs.TwinWorlds
import ScriptEngine.Proofs.TwinTransitions
import ScriptEngine.Proofs.Switches
import ScriptEngine.Proofs.BuilderJournal
import ScriptEngine.Proofs.SourcePositions
import ScriptEngine.Proofs.ConstantPool
import ScriptEngine.Proofs.PathNames
import ScriptEngine.Proofs.NearestManifest
