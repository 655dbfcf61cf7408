import TopicBridge.Host.Recorder
import TopicBridge.Link.Terminal
import TopicBridge.Main
import TopicBridge.Proofs.Queue
import TopicBridge.Proofs.Sizes
import TopicBridge.Proofs.Marked
import TopicBridge.Proofs.Seeking
import TopicBridge.Proofs.Delimited
import TopicBridge.Proofs.Truncation
import TopicBridge.Proofs.Resynchronisation
import TopicBridge.Proofs.Looks
import TopicBridge.Proofs.Arrivals
import TopicBridge.Proofs.Reading
import TopicBridge.Proofs.Session
import TopicBridge.Proofs.Lossless
import TopicBridge.Proofs.Splitting
import TopicBridge.Proofs.Discard
import TopicBridge.Proofs.Provenance
import TopicBridge.Proofs.Batch
import TopicBridge.Proofs.Writing
import TopicBridge.Proofs.Passage
import TopicBridge.Proofs.Exchange
import TopicBridge.Proofs.Headroom
import TopicBridge.Proofs.Calls
import TopicBridge.Proofs.Acceptance
import TopicBridge.Proofs.Messages
import TopicBridge.Proofs.Tables
import TopicBridge.Proofs.Parties
import TopicBridge.Proofs.Agreement
import TopicBridge.Proofs.Fatality
import TopicBridge.Proofs.Lifetime
import TopicBridge.Proofs.Dispatching
import TopicBridge.Proofs.Closing
import TopicBridge.Proofs.Stopping
import TopicBridge.Proofs.Shutdown
import TopicBridge.Proofs.Listing
import TopicBridge.Proofs.Rows
import TopicBridge.Proofs.Rearranging
import TopicBridge.Proofs.TopicKeys
import TopicBridge.Proofs.Drafting
import TopicBridge.Proofs.Configured
import TopicBridge.Proofs.Outlets
import TopicBridge.Proofs.Pumping
import TopicBridge.Proofs.Fitting
import TopicBridge.Proofs.Datagrams
import TopicBridge.Proofs.Registering
import TopicBridge.Proofs.Handover
import TopicBridge.Proofs.Numbering
import TopicBridge.Proofs.Recovery
import TopicBridge.Proofs.Turns
import TopicBridge.Proofs.Progress
import TopicBridge.Proofs.Accounting
import TopicBridge.Proofs.Hexadecimal
import TopicBridge.Proofs.Lines
import TopicBridge.Proofs.Chaining
import TopicBridge.Proofs.Flattening
import TopicBridge.Proofs.Registers
import TopicBridge.Proofs.Cycles
import TopicBridge.Proofs.Detection
import TopicBridge.Proofs.Numerals
import TopicBridge.Proofs.Respelling
import TopicBridge.Proofs.Vetting
