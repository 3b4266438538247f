import LittleMan.Main
import LittleMan.Script.Calls
import LittleMan.Proofs.Text.Decimal
import LittleMan.Proofs.Text.Utf8
import LittleMan.Proofs.Words
import LittleMan.Proofs.Lexing
import LittleMan.Proofs.Grammar
import LittleMan.Proofs.Sentences
import LittleMan.Proofs.Compilation
import LittleMan.Proofs.Execution
import LittleMan.Proofs.CommandMachine
import LittleMan.Proofs.Runs
import LittleMan.Proofs.Failures
import LittleMan.Proofs.Output
import LittleMan.Proofs.Invariant
import LittleMan.Proofs.Text.Blank
import LittleMan.Proofs.Scanning
import LittleMan.Proofs.Tape
import LittleMan.Proofs.Desk
import LittleMan.Proofs.Unread
import LittleMan.Proofs.Requests
import LittleMan.Proofs.Listing
import LittleMan.Proofs.Delivery
import LittleMan.Proofs.Ranges
import LittleMan.Proofs.Image
import LittleMan.Proofs.Loading
import LittleMan.Proofs.Reproduction
import LittleMan.Proofs.Files
import LittleMan.Proofs.Driver
import LittleMan.Proofs.Stages
import LittleMan.Proofs.Reload
import LittleMan.Proofs.Calls
import LittleMan.Proofs.Unpacking
import LittleMan.Proofs.CallScript
import LittleMan.Proofs.Reports
import LittleMan.Proofs.Building
import LittleMan.Proofs.Endings
import LittleMan.Proofs.Messages
import LittleMan.Proofs.Trace
