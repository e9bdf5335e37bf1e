import Determinizer.Dfa.Draft
import Determinizer.Editor.Script
import Determinizer.Main
import Determinizer.Proofs.Nfa.Language
import Determinizer.Web.Service
import Determinizer.Proofs.Exploration.Renaming
import Determinizer.Proofs.Nfa.Invariance
import Determinizer.Proofs.Decimal.Numeral
import Determinizer.Proofs.Json.Text
import Determinizer.Proofs.Json.RoundTrip
import Determinizer.Proofs.Encoding.Utf8
import Determinizer.Proofs.Config.Document
import Determinizer.Proofs.Config.Exchange
import Determinizer.Proofs.Web.Exchange
import Determinizer.Proofs.Encoding.Detection
import Determinizer.Proofs.Command.Files
import Determinizer.Proofs.Editor.Load
import Determinizer.Proofs.Agreement
import Determinizer.Proofs.Editor.Runs
import Determinizer.Proofs.Editor.Snapshot
import Determinizer.Proofs.Config.Rejection
import Determinizer.Proofs.Editor.Exchange
import Determinizer.Proofs.Rejection
import Determinizer.Proofs.Key.NormalForm
import Determinizer.Proofs.Exploration.AccessWords
import Determinizer.Proofs.Exploration.BreadthFirst
import Determinizer.Proofs.Web.Relayout
import Determinizer.Proofs.Config.Completeness
import Determinizer.Proofs.Web.Status
import Determinizer.Proofs.Exploration.Relevance
import Determinizer.Proofs.Exploration.Reordering
import Determinizer.Proofs.Dfa.Automaton
import Determinizer.Proofs.Nfa.NormalForm
import Determinizer.Proofs.Dfa.Layout
import Determinizer.Proofs.Dfa.TextTable
import Determinizer.Proofs.Dfa.Statistics
import Determinizer.Proofs.Web.Report
import Determinizer.Proofs.Nfa.EmptyKey
import Determinizer.Proofs.Config.Shape
import Determinizer.Proofs.Web.Rendering
import Determinizer.Proofs.Editor.LastWrite
import Determinizer.Proofs.Editor.Typing
import Determinizer.Proofs.Exploration.Repetition
import Determinizer.Proofs.Config.Labels
