import LineStore.Bytes
import LineStore.Client.Call
import LineStore.Client.Company
import LineStore.Client.Failure
import LineStore.Client.Link
import LineStore.Client.Program
import LineStore.Client.ScriptedPeer
import LineStore.CommandLine.Flag
import LineStore.CommandLine.Report
import LineStore.Fault
import LineStore.Lock.Crowd
import LineStore.Lock.Direct
import LineStore.Lock.Guarded
import LineStore.Lock.History
import LineStore.Lock.Roster
import LineStore.Lock.Run
import LineStore.Lock.State
import LineStore.Main
import LineStore.Network.Address
import LineStore.Network.Basic
import LineStore.Network.Fault
import LineStore.Network.Ipv4
import LineStore.Network.Ipv6
import LineStore.Network.Machine
import LineStore.Proofs.Client.Answers
import LineStore.Proofs.Client.Company
import LineStore.Proofs.Client.Exchanges
import LineStore.Proofs.Client.Lengths
import LineStore.Proofs.Client.Lines
import LineStore.Proofs.Client.Reading
import LineStore.Proofs.Client.Stored
import LineStore.Proofs.Client.Unfinished
import LineStore.Proofs.Counting
import LineStore.Proofs.Lock.Access
import LineStore.Proofs.Lock.Draining
import LineStore.Proofs.Lock.Exclusion
import LineStore.Proofs.Lock.Fairness
import LineStore.Proofs.Lock.Granting
import LineStore.Proofs.Lock.Guards
import LineStore.Proofs.Lock.Outcome
import LineStore.Proofs.Lock.Precedence
import LineStore.Proofs.Lock.Queue
import LineStore.Proofs.Lock.Shifts
import LineStore.Proofs.Lock.Standings
import LineStore.Proofs.Lock.Wakeups
import LineStore.Proofs.Printing
import LineStore.Proofs.Refusals
import LineStore.Proofs.Responder
import LineStore.Proofs.Server.Alone
import LineStore.Proofs.Server.Arrivals
import LineStore.Proofs.Server.Buffers
import LineStore.Proofs.Server.Crews
import LineStore.Proofs.Server.Defences
import LineStore.Proofs.Server.Deliveries
import LineStore.Proofs.Server.Executions
import LineStore.Proofs.Server.Intake
import LineStore.Proofs.Server.Keeping
import LineStore.Proofs.Server.Layers
import LineStore.Proofs.Server.Separation
import LineStore.Proofs.Server.Sessions
import LineStore.Proofs.Server.Transcripts
import LineStore.Proofs.Server.Vigils
import LineStore.Proofs.Store.Bucketwise
import LineStore.Proofs.Store.Census
import LineStore.Proofs.Store.Chains
import LineStore.Proofs.Store.Chronology
import LineStore.Proofs.Store.Commuting
import LineStore.Proofs.Store.Holders
import LineStore.Proofs.Store.Keywise
import LineStore.Proofs.Store.Linear
import LineStore.Proofs.Store.Listings
import LineStore.Proofs.Store.Passages
import LineStore.Proofs.Store.Placement
import LineStore.Proofs.Store.Races
import LineStore.Proofs.Store.Refinement
import LineStore.Proofs.Store.Runs
import LineStore.Proofs.Store.Turns
import LineStore.Proofs.Store.Upkeep
import LineStore.Proofs.Telemetry.Balance
import LineStore.Proofs.Telemetry.Histograms
import LineStore.Proofs.Telemetry.Totals
import LineStore.Proofs.Text.Ascii
import LineStore.Proofs.Text.Fields
import LineStore.Proofs.Wire.Framing
import LineStore.Proofs.Wire.Lines
import LineStore.Proofs.Wire.Reading
import LineStore.Proofs.Wire.Replies
import LineStore.Proofs.Wire.Requests
import LineStore.Proofs.Wire.Spellings
import LineStore.Responder
import LineStore.Server.Connection
import LineStore.Server.Crew
import LineStore.Server.Failure
import LineStore.Server.Gathering
import LineStore.Server.Listening
import LineStore.Server.Pool
import LineStore.Server.Program
import LineStore.Server.Session
import LineStore.Server.Settings
import LineStore.Server.StopSignal
import LineStore.Server.Switchboard
import LineStore.Server.Transcript
import LineStore.Server.Vigil
import LineStore.Server.Worker
import LineStore.Span
import LineStore.Store.Basic
import LineStore.Store.Chain
import LineStore.Store.Chronicle
import LineStore.Store.Contention
import LineStore.Store.Contents
import LineStore.Store.Dump
import LineStore.Store.Operation
import LineStore.Store.Placement
import LineStore.Telemetry.Counters
import LineStore.Telemetry.Histogram
import LineStore.Telemetry.Traffic
import LineStore.Text.Blank
import LineStore.Text.Extender
import LineStore.Text.Numeral
import LineStore.Text.Printable
import LineStore.Text.Quoted
import LineStore.Text.Utf8
import LineStore.Wire.Command
import LineStore.Wire.Frame
import LineStore.Wire.Framer
import LineStore.Wire.Grammar
import LineStore.Wire.Limits
import LineStore.Wire.Reply
import LineStore.Wire.Request
import LineStore.Wire.Spelling
