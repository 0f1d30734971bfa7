import VorCommander.Crypto.Sha256
import VorCommander.Approval
import VorCommander.Audit.Ledger
import VorCommander.Device.Completeness
import VorCommander.Auth.Store
import VorCommander.Gateway.Delegation
import VorCommander.Text.Base64
import VorCommander.Protocol
import VorCommander.Text.Json
import VorCommander.Device.Outcomes
import VorCommander.Device.Recovery
import VorCommander.Text.Delimited
import VorCommander.Audit.History
import VorCommander.Audit.Exclusion
import VorCommander.Audit.Readers
import VorCommander.Billing.Handles
import VorCommander.Steps.Refine
import VorCommander.Fs.Files
import VorCommander.Worker.Terminal
import VorCommander.Worker.Interface
import VorCommander.Auth.Tenants
import VorCommander.Auth.Isolation
import VorCommander.Auth.StateFile
import VorCommander.Auth.StateRuns
import VorCommander.Auth.Updates
import VorCommander.Auth.Codes
import VorCommander.Auth.Crashes
import VorCommander.Policy.Spelling
import VorCommander.Hub.Pending
import VorCommander.Hub.Delivery
import VorCommander.Approval.Registry
import VorCommander.Hub.Interference
import VorCommander.Hub.Binding
import VorCommander.Agent.Panics
import VorCommander.Hub.Honest
import VorCommander.Device.RoundTrip
import VorCommander.Protocol.Canonical
import VorCommander.Auth.TenantState
import VorCommander.Terminal.Manager
import VorCommander.Worker.Atomicity
import VorCommander.Worker.Swap
import VorCommander.Maintainer.Outcome
import VorCommander.Worker.Unattended
import VorCommander.Worker.SafeList
import VorCommander.Fs.Newlines
import VorCommander.Browser.Freshness
import VorCommander.Gateway.Forwarding
import VorCommander.Policy.InlineEval
import VorCommander.Text.Arguments
import VorCommander.Terminal.CommandLine
import VorCommander.Text.Regex
import VorCommander.Fs.Glob
import VorCommander.Steps.Descent
import VorCommander.Fs.Paths
import VorCommander.Fs.Walk
import VorCommander.Gateway.RemoteWrite
import VorCommander.Terminal.Poll
import VorCommander.Fs.ReadBack
import VorCommander.Text.Hunk
import VorCommander.Fs.Summary
import VorCommander.Text.Fields
import VorCommander.Approver.Summary
import VorCommander.Approver.Unambiguous
import VorCommander.Text.Length
import VorCommander.Steps.Returns
import VorCommander.Worker.Answers
import VorCommander.Device.OutputLimit
import VorCommander.Text.Url
import VorCommander.Browser.Origin
import VorCommander.Dashboard.Snapshot
import VorCommander.Dashboard.Summary
import VorCommander.Dashboard.Projection
import VorCommander.Crypto.Hmac
import VorCommander.Billing.Signature
import VorCommander.Hub.Grants
import VorCommander.Fs.Explore
import VorCommander.Worker.Git
import VorCommander.Worker.Explore
import VorCommander.Steps.Crash
import VorCommander.Maintainer.Update
import VorCommander.Maintainer.Kept
import VorCommander.Maintainer.Recovery
import VorCommander.Maintainer.Undisturbed
import VorCommander.Process.Worker
import VorCommander.Process.Termination
import VorCommander.Secrets.Store
import VorCommander.Secrets.Refinement
import VorCommander.Secrets.Keys
import VorCommander.Agent.Link
import VorCommander.Terminal.Console
import VorCommander.Terminal.Bounded
