import CallDebugger.Link.Pair
import CallDebugger.Main
import CallDebugger.Proofs.Duo.Agreement
import CallDebugger.Proofs.Duo.BreakToken
import CallDebugger.Proofs.Duo.Correlation
import CallDebugger.Proofs.Frame.Reencoded
import CallDebugger.Proofs.Frame.RoundTrip
import CallDebugger.Proofs.Link.Sending
import CallDebugger.Proofs.Session.Callbacks
import CallDebugger.Proofs.Session.Commanding
import CallDebugger.Proofs.Session.Dealings
import CallDebugger.Proofs.Session.Endings
import CallDebugger.Proofs.Session.Refreshing
import CallDebugger.Proofs.Session.Settings
import CallDebugger.Proofs.Traced.Pausing
import CallDebugger.Proofs.Traced.Replies
import CallDebugger.Proofs.Session.Watching
import CallDebugger.Proofs.Traced.Heeding
import CallDebugger.Proofs.Traced.Losing
import CallDebugger.Proofs.Traced.Recording
import CallDebugger.Proofs.Traced.Questions
import CallDebugger.Proofs.Traced.Threads
import CallDebugger.Proofs.Trace.Kept
import CallDebugger.Proofs.Frame.Growing
import CallDebugger.Proofs.Frame.Leading
import CallDebugger.Proofs.Link.Reread
import CallDebugger.Proofs.Console.Listing
import CallDebugger.Proofs.Console.Paging
import CallDebugger.Proofs.Session.Awaiting
import CallDebugger.Proofs.Console.Watched
import CallDebugger.Proofs.Text.Numerals
import CallDebugger.Proofs.Text.Parted
import CallDebugger.Proofs.Console.Wording
import CallDebugger.Proofs.Config.Layering
import CallDebugger.Proofs.Config.Loading
import CallDebugger.Proofs.Log.Generations
import CallDebugger.Proofs.Session.Chronicle
import CallDebugger.Proofs.Config.Skipping
import CallDebugger.Proofs.Demo.Reported
import CallDebugger.Proofs.Config.Endpoints
import CallDebugger.Proofs.Object.Once
