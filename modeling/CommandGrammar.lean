import CommandGrammar.Context.Edition
import CommandGrammar.Main
import CommandGrammar.Proofs.Completion
import CommandGrammar.Proofs.Execution
import CommandGrammar.Proofs.Flags.Completion
import CommandGrammar.Proofs.Flags.Placement
import CommandGrammar.Proofs.Flags.Strays
import CommandGrammar.Proofs.Flags.Ignored
import CommandGrammar.Proofs.Flags.Inline
import CommandGrammar.Proofs.Flags.Growing
import CommandGrammar.Proofs.Flags.Declarations
import CommandGrammar.Proofs.Grammar.Rollback
import CommandGrammar.Proofs.Token.Quoting
import CommandGrammar.Proofs.Dispatcher
import CommandGrammar.Proofs.Dispatcher.Log
import CommandGrammar.Proofs.Dispatcher.Copies
import CommandGrammar.Proofs.Manager.Edits
import CommandGrammar.Proofs.Manager.Namespaces
import CommandGrammar.Proofs.Manager.Repeats
import CommandGrammar.Proofs.Manager.Reporting
import CommandGrammar.Proofs.Grammar.Termination
import CommandGrammar.Proofs.Grammar.Offsets
import CommandGrammar.Proofs.Grammar.Hidden
import CommandGrammar.Proofs.Grammar.EmptyWord
import CommandGrammar.Proofs.Nesting
import CommandGrammar.Proofs.Fallback
import CommandGrammar.Proofs.Token.Unfinished
import CommandGrammar.Proofs.Token.Resumed
import CommandGrammar.Proofs.Manager.Accepting
import CommandGrammar.Proofs.Grammar.Places
import CommandGrammar.Proofs.Retracing
import CommandGrammar.Proofs.Refusal
import CommandGrammar.Proofs.Remainder
import CommandGrammar.Proofs.Grammar.Slots
import CommandGrammar.Proofs.Grammar.Settled
import CommandGrammar.Proofs.Grammar.Absence
import CommandGrammar.Proofs.Cursor.Edits
import CommandGrammar.Proofs.Duration.RoundTrip
import CommandGrammar.Proofs.Grammar.Typed
import CommandGrammar.Proofs.Elision
import CommandGrammar.Proofs.Session
import CommandGrammar.Proofs.Text.Beginnings
import CommandGrammar.Proofs.Multimap.History
