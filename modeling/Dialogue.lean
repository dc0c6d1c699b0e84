import Dialogue.CommandLine.Execute
import Dialogue.Main
import Dialogue.Stage
import Dialogue.TestCase.Run
import Dialogue.Proofs.Agreement
import Dialogue.Proofs.BareScripts
import Dialogue.Proofs.Bystanders
import Dialogue.Proofs.Delivery
import Dialogue.Proofs.Diagnosis
import Dialogue.Proofs.Endings
import Dialogue.Proofs.Handlers
import Dialogue.Proofs.Isolation
import Dialogue.Proofs.Loading
import Dialogue.Proofs.LoadingTexts
import Dialogue.Proofs.Onward
import Dialogue.Proofs.Prefixes
import Dialogue.Proofs.Prompts
import Dialogue.Proofs.Recording
import Dialogue.Proofs.Refusal
import Dialogue.Proofs.Relabelling
import Dialogue.Proofs.Replies
import Dialogue.Proofs.RoundTrip
import Dialogue.Proofs.SelectionTexts
import Dialogue.Proofs.Sessions
import Dialogue.Proofs.Siblings
import Dialogue.Proofs.Transcripts
import Dialogue.Proofs.Walk
import Dialogue.Proofs.Lookup
import Dialogue.Proofs.Removal
