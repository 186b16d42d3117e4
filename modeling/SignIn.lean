import SignIn.Broker.Client
import SignIn.Broker.Connection
import SignIn.Browser
import SignIn.Callback.Json
import SignIn.Callback.Params
import SignIn.Callback.Schedule
import SignIn.Callback.Verification
import SignIn.CommandLine
import SignIn.CommandLine.Wording
import SignIn.Configuration
import SignIn.Crypto.Rsa
import SignIn.Crypto.Sha256
import SignIn.Delayed
import SignIn.Dictionary
import SignIn.Event
import SignIn.Event.Bus
import SignIn.Failure
import SignIn.Http.Address
import SignIn.Http.Fields
import SignIn.Http.Message
import SignIn.Http.Status
import SignIn.Http.Transport
import SignIn.Json.Error
import SignIn.Json.Record
import SignIn.Json.Scan
import SignIn.Json.Walk
import SignIn.Json.Write
import SignIn.Launch
import SignIn.Main
import SignIn.Mock.Client
import SignIn.Mock.Code
import SignIn.Mock.IdToken
import SignIn.Mock.Page
import SignIn.Mock.Server
import SignIn.Nonce
import SignIn.Nonce.Purge
import SignIn.OpenId.Client
import SignIn.OpenId.Discovery
import SignIn.OpenId.IdToken
import SignIn.OpenId.Provider
import SignIn.Page
import SignIn.Party.Instance
import SignIn.Party.Server
import SignIn.Party.Service
import SignIn.Proofs.Broker.Calendar
import SignIn.Proofs.Broker.Client
import SignIn.Proofs.Broker.Endpoint
import SignIn.Proofs.Broker.Redemption
import SignIn.Proofs.Broker.Rejection
import SignIn.Proofs.Broker.Teardown
import SignIn.Proofs.Callback.Announcement
import SignIn.Proofs.Callback.Calls
import SignIn.Proofs.Callback.Course
import SignIn.Proofs.Callback.Crowd
import SignIn.Proofs.Callback.Fields
import SignIn.Proofs.Callback.Interleaving
import SignIn.Proofs.Callback.Json
import SignIn.Proofs.Callback.Outcome
import SignIn.Proofs.Callback.Spelled
import SignIn.Proofs.CommandLine
import SignIn.Proofs.Configuration
import SignIn.Proofs.Event.Execution
import SignIn.Proofs.Event.Mailbox
import SignIn.Proofs.Event.Receiver
import SignIn.Proofs.Event.Several
import SignIn.Proofs.Event.Snapshot
import SignIn.Proofs.Event.Table
import SignIn.Proofs.Except
import SignIn.Proofs.Handshake
import SignIn.Proofs.Http.Transport
import SignIn.Proofs.Json.Again
import SignIn.Proofs.Json.Closing
import SignIn.Proofs.Json.Grammar
import SignIn.Proofs.Json.Kept
import SignIn.Proofs.Json.Number
import SignIn.Proofs.Json.Pass
import SignIn.Proofs.Json.Record
import SignIn.Proofs.Json.Shapes
import SignIn.Proofs.Json.Skip
import SignIn.Proofs.Json.Spelled
import SignIn.Proofs.Json.Taken
import SignIn.Proofs.Json.Text
import SignIn.Proofs.Json.Unambiguous
import SignIn.Proofs.Launch
import SignIn.Proofs.Log
import SignIn.Proofs.Mock.Acceptance
import SignIn.Proofs.Mock.Client
import SignIn.Proofs.Mock.Code
import SignIn.Proofs.Mock.Confirmation
import SignIn.Proofs.Mock.Delivery
import SignIn.Proofs.Mock.Exchange
import SignIn.Proofs.Mock.IdToken
import SignIn.Proofs.Mock.Page
import SignIn.Proofs.Mock.Redirect
import SignIn.Proofs.Mock.Server
import SignIn.Proofs.Nonce.History
import SignIn.Proofs.Nonce.Purging
import SignIn.Proofs.Page
import SignIn.Proofs.Party.Deadline
import SignIn.Proofs.Party.Delivery
import SignIn.Proofs.Party.Disclosure
import SignIn.Proofs.Party.LifeCycle
import SignIn.Proofs.Party.Meanwhile
import SignIn.Proofs.Party.Methods
import SignIn.Proofs.Party.Patience
import SignIn.Proofs.Party.Service
import SignIn.Proofs.Party.Teardown
import SignIn.Proofs.Text.Base64
import SignIn.Proofs.Text.Form
import SignIn.Proofs.Text.Html
import SignIn.Proofs.Text.Lossy
import SignIn.Proofs.Text.Numeral
import SignIn.Proofs.Text.Percent
import SignIn.Proofs.Text.Utf8
import SignIn.Proofs.Token.Exchange
import SignIn.Proofs.Token.Reply
import SignIn.Proofs.Token.Shapes
import SignIn.Proofs.Url.Escape
import SignIn.Proofs.Url.Host
import SignIn.Proofs.Url.Join
import SignIn.Proofs.Url.Parse
import SignIn.Proofs.Url.Query
import SignIn.Proofs.Url.Root
import SignIn.Proofs.Url.Server
import SignIn.Proofs.Url.Slashes
import SignIn.Shared
import SignIn.Text.Base64
import SignIn.Text.Form
import SignIn.Text.Html
import SignIn.Text.Numeral
import SignIn.Text.Percent
import SignIn.Text.Quoted
import SignIn.Text.Shortest
import SignIn.Text.Similarity
import SignIn.Text.Unprinted
import SignIn.Text.Utf8
import SignIn.Time
import SignIn.Token.Exchange
import SignIn.Token.Grant
import SignIn.Url.Basic
import SignIn.Url.Host
import SignIn.Url.Parse
import SignIn.Url.Query
