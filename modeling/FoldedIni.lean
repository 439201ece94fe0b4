import FoldedIni.Main
import FoldedIni.Proofs.Fold.Scan
import FoldedIni.Proofs.Fold.RoundTrip
import FoldedIni.Proofs.Fold.Idempotence
import FoldedIni.Proofs.Fold.Progress
import FoldedIni.Proofs.Fold.Division
import FoldedIni.Proofs.Fold.Extension
import FoldedIni.Proofs.Fold.Resume
import FoldedIni.Proofs.Fold.Tokens
import FoldedIni.Proofs.Store.InStep
import FoldedIni.Proofs.Store.Failure
import FoldedIni.Proofs.Store.Parallel
import FoldedIni.Proofs.Store.Ownership
import FoldedIni.Proofs.Store.Isolation
import FoldedIni.Proofs.Store.KeyLength
import FoldedIni.Proofs.Store.Acceptance
import FoldedIni.Proofs.Entry.ReadBack
import FoldedIni.Proofs.Entry.Grammar
import FoldedIni.Proofs.Entry.WriteBack
import FoldedIni.Proofs.Fold.SingleLine
import FoldedIni.Proofs.Settings.Reading
import FoldedIni.Proofs.Settings.Loading
import FoldedIni.Proofs.Display.Markup
import FoldedIni.Proofs.Command.Action
import FoldedIni.Proofs.Command.Display
import FoldedIni.Proofs.Command.Ending
