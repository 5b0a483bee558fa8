import MessageMachine.Cache.Dispatch
import MessageMachine.Cache.Guard
import MessageMachine.Cache.Sites
import MessageMachine.Code.Evaluation
import MessageMachine.Code.Flaw
import MessageMachine.Code.Method
import MessageMachine.Code.Outline
import MessageMachine.Code.Preparation
import MessageMachine.Code.Primitive
import MessageMachine.Code.Tree
import MessageMachine.Language.Interner
import MessageMachine.Language.Selector
import MessageMachine.Language.Source
import MessageMachine.Machine.Activation
import MessageMachine.Machine.Bootstrap
import MessageMachine.Machine.Definition
import MessageMachine.Machine.Eval
import MessageMachine.Machine.Failure
import MessageMachine.Machine.Fields
import MessageMachine.Machine.Host
import MessageMachine.Machine.Image
import MessageMachine.Machine.Journal
import MessageMachine.Machine.Platform
import MessageMachine.Machine.Sending
import MessageMachine.Machine.Settings
import MessageMachine.Memory.Arena
import MessageMachine.Memory.Class
import MessageMachine.Memory.Dictionary
import MessageMachine.Memory.Frame
import MessageMachine.Memory.Instance
import MessageMachine.Memory.Shape
import MessageMachine.Memory.Value
import MessageMachine.Number.Double
import MessageMachine.Number.DoubleText
import MessageMachine.Number.Integer
import MessageMachine.Number.Power
import MessageMachine.Number.Shortest
import MessageMachine.Number.Word
import MessageMachine.Primitive.Collection
import MessageMachine.Primitive.Control
import MessageMachine.Primitive.Double
import MessageMachine.Primitive.Integer
import MessageMachine.Primitive.Reflection
import MessageMachine.Primitive.Reply
import MessageMachine.Primitive.String
import MessageMachine.Text.Alphabetic
import MessageMachine.Text.Blank
import MessageMachine.Text.CharacterClass
import MessageMachine.Text.Digest
import MessageMachine.Text.Numeric
import MessageMachine.Proofs.Acceptance
import MessageMachine.Proofs.Arithmetic
import MessageMachine.Proofs.Arity
import MessageMachine.Proofs.ArrayText
import MessageMachine.Proofs.Atomicity
import MessageMachine.Proofs.Backtrace
import MessageMachine.Proofs.CacheSize
import MessageMachine.Proofs.Capture
import MessageMachine.Proofs.Control
import MessageMachine.Proofs.Counterpart
import MessageMachine.Proofs.Dispatch
import MessageMachine.Proofs.Identity
import MessageMachine.Proofs.Chronology
import MessageMachine.Proofs.Liveness
import MessageMachine.Proofs.Mismatch
import MessageMachine.Proofs.Override
import MessageMachine.Proofs.Registry
import MessageMachine.Proofs.Return
import MessageMachine.Proofs.ShapeEvolution
import MessageMachine.Proofs.Soundness
import MessageMachine.Proofs.Storage
import MessageMachine.Proofs.StorageJoin
import MessageMachine.Proofs.CacheChain
import MessageMachine.Proofs.CacheStates
import MessageMachine.Proofs.OperandCount
import MessageMachine.Proofs.SquareRoot
import MessageMachine.Proofs.Decimal
import MessageMachine.Proofs.FinalStorage
import MessageMachine.Proofs.Histories
import MessageMachine.Proofs.Comparison
import MessageMachine.Proofs.Numbering
import MessageMachine.Proofs.SiteUse
import MessageMachine.Proofs.Literals
