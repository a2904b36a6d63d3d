import TreeWalk.Cursor
import TreeWalk.Main
import TreeWalk.Proofs.Grammar.Derivation
import TreeWalk.Proofs.Grammar.Reads
import TreeWalk.Proofs.Grammar.Soundness
import TreeWalk.Proofs.Grammar.Reading
import TreeWalk.Proofs.Grammar.Ambiguity
import TreeWalk.Proofs.Grammar.Parsing
import TreeWalk.Proofs.Cursor.Rest
import TreeWalk.Proofs.Environment.Stack
import TreeWalk.Proofs.Execution.Reaches
import TreeWalk.Proofs.Execution.Breaks
import TreeWalk.Proofs.Execution.Truncation
import TreeWalk.Proofs.Evaluation.Effect
import TreeWalk.Proofs.Execution.Bounds
import TreeWalk.Proofs.Execution.Events
import TreeWalk.Proofs.Execution.Faults
import TreeWalk.Proofs.Execution.Frames
import TreeWalk.Proofs.Execution.Program
import TreeWalk.Proofs.Scope.Fit
import TreeWalk.Proofs.Scope.Lexical
import TreeWalk.Proofs.Session.Reachable
import TreeWalk.Proofs.Token.Layout
import TreeWalk.Proofs.Token.Lossless
import TreeWalk.Proofs.Tree.Exchange
import TreeWalk.Proofs.Grammar.Tandem
import TreeWalk.Proofs.Grammar.Agreement
import TreeWalk.Proofs.Grammar.Recovery
import TreeWalk.Proofs.Grammar.Containment
import TreeWalk.Proofs.Execution.Causes
import TreeWalk.Proofs.Session.Rejection
import TreeWalk.Proofs.Token.Joining
import TreeWalk.Proofs.Token.Rereading
import TreeWalk.Proofs.Token.Respacing
import TreeWalk.Proofs.Grammar.Respacing
import TreeWalk.Proofs.Execution.Movement
import TreeWalk.Proofs.Grammar.Movement
import TreeWalk.Proofs.Session.Joining
import TreeWalk.Proofs.Session.Truncation
import TreeWalk.Proofs.Execution.ForLoop
import TreeWalk.Proofs.Grammar.Composition
import TreeWalk.Proofs.Grammar.Locality
import TreeWalk.Proofs.Grammar.Slices
import TreeWalk.Proofs.Grammar.Comments
import TreeWalk.Proofs.Grammar.Blame
import TreeWalk.Proofs.Grammar.ErrorOrder
import TreeWalk.Proofs.Grammar.EndMarker
import TreeWalk.Proofs.Grammar.Moves
import TreeWalk.Proofs.Grammar.Progress
import TreeWalk.Proofs.Token.LongestMatch
import TreeWalk.Proofs.Token.Nesting
import TreeWalk.Proofs.Token.Quotation
import TreeWalk.Proofs.Tree.Reading
import TreeWalk.Proofs.Tree.Spelling
import TreeWalk.Proofs.Execution.Footprint
import TreeWalk.Proofs.Token.Invalid
import TreeWalk.Proofs.Session.Values
import TreeWalk.Proofs.Execution.Enclosing
import TreeWalk.Proofs.Session.Enclosing
import TreeWalk.Proofs.Cursor.Words
import TreeWalk.Proofs.Prompt.Transcript
