import GrammarWorkbench.Automaton.Construction
import GrammarWorkbench.Conflict.Detection
import GrammarWorkbench.Conflict.Highlight
import GrammarWorkbench.Decimal.Numeral
import GrammarWorkbench.Decimal.Written
import GrammarWorkbench.Diagram.Overview
import GrammarWorkbench.Grammar
import GrammarWorkbench.Json.Plain
import GrammarWorkbench.Json.Reader
import GrammarWorkbench.Json.Writer
import GrammarWorkbench.Proofs.Automaton.Accepting
import GrammarWorkbench.Proofs.Automaton.Canonical
import GrammarWorkbench.Proofs.Automaton.Kernel
import GrammarWorkbench.Proofs.Automaton.LeastClosure
import GrammarWorkbench.Proofs.Automaton.Reached
import GrammarWorkbench.Proofs.Breadth.Walk
import GrammarWorkbench.Proofs.Conflict.Exact
import GrammarWorkbench.Proofs.Diagram.Agreement
import GrammarWorkbench.Proofs.Diagram.Canvas
import GrammarWorkbench.Proofs.Diagram.Distance
import GrammarWorkbench.Proofs.Diagram.Labels
import GrammarWorkbench.Proofs.Diagram.Overview
import GrammarWorkbench.Proofs.Parse.Unambiguity
import GrammarWorkbench.Proofs.Report.Inert
import GrammarWorkbench.Proofs.Report.Node
import GrammarWorkbench.Proofs.Rule.Augmented
import GrammarWorkbench.Proofs.Rule.Exact
import GrammarWorkbench.Proofs.Service.Delivery
import GrammarWorkbench.Proofs.Sets.Passes
import GrammarWorkbench.Proofs.Termination
import GrammarWorkbench.Proofs.Totality
import GrammarWorkbench.Proofs.Unreached
import GrammarWorkbench.Proofs.Workflow.History
import GrammarWorkbench.Proofs.Workflow.Independence
import GrammarWorkbench.Proofs.Workflow.Reread
import GrammarWorkbench.Proofs.Workflow.Wrapped
import GrammarWorkbench.Rule.Source
import GrammarWorkbench.Service.Answer
import GrammarWorkbench.Sets.Follow
import GrammarWorkbench.Text.Entity
import GrammarWorkbench.Text.Quoted
import GrammarWorkbench.Workflow.Status
import GrammarWorkbench.Workflow.Step
