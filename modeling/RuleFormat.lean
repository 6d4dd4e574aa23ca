import RuleFormat.Files.Basic
import RuleFormat.Proofs.Agreement
import RuleFormat.Proofs.Ancestors
import RuleFormat.Proofs.Bytewise.Scan
import RuleFormat.Proofs.Conservation
import RuleFormat.Proofs.Coverage
import RuleFormat.Proofs.Effects
import RuleFormat.Proofs.Exit
import RuleFormat.Proofs.Idempotence
import RuleFormat.Proofs.InputOrder
import RuleFormat.Proofs.JsonText
import RuleFormat.Proofs.KeyMatch
import RuleFormat.Proofs.LineFeeds
import RuleFormat.Proofs.Literals
import RuleFormat.Proofs.Lookahead
import RuleFormat.Proofs.Malformed
import RuleFormat.Proofs.Pieces
import RuleFormat.Proofs.Reconcile
import RuleFormat.Proofs.Replace
import RuleFormat.Proofs.Search
import RuleFormat.Proofs.Strict
import RuleFormat.Proofs.Tables
import RuleFormat.Proofs.TerminalLines
import RuleFormat.Proofs.Verdict
import RuleFormat.Proofs.Warnings
