import ClientRoster.Source
import ClientRoster.Whois
import ClientRoster.Address
import ClientRoster.Roster.Desk
import ClientRoster.Text.Blank
import ClientRoster.Text.Quoted
import ClientRoster.Json.Literal
import ClientRoster.Json.Numeral
import ClientRoster.Json.Doc.Reader
import ClientRoster.Json.Layout
import ClientRoster.Hint.Json
import ClientRoster.Settings.Json
import ClientRoster.Notice.Queue
import ClientRoster.Main
import ClientRoster.Proofs.Client.Edit
import ClientRoster.Proofs.Client.Slots
import ClientRoster.Proofs.Client.Text
import ClientRoster.Proofs.Roster.Change
import ClientRoster.Proofs.Roster.Cell
import ClientRoster.Proofs.Roster.LastWrite
import ClientRoster.Proofs.Intake.Hints
import ClientRoster.Proofs.Intake.Purge
import ClientRoster.Proofs.Json.Grammar
import ClientRoster.Proofs.Json.Tokens
import ClientRoster.Proofs.Json.Reading
import ClientRoster.Proofs.Json.Rendering
import ClientRoster.Proofs.Json.Decode
import ClientRoster.Proofs.Json.Fields
import ClientRoster.Proofs.Whois.Form
import ClientRoster.Proofs.Hint.Form
import ClientRoster.Proofs.Hint.Line
import ClientRoster.Proofs.Text.Fields
import ClientRoster.Proofs.Address.Text
import ClientRoster.Proofs.Hint.Text
import ClientRoster.Proofs.Hint.Transport
import ClientRoster.Proofs.Json.Cut
import ClientRoster.Proofs.Json.Accepted
import ClientRoster.Proofs.Hint.Stream
import ClientRoster.Proofs.Daemon.Options
import ClientRoster.Proofs.Daemon.Run
import ClientRoster.Proofs.Intake.Announced
import ClientRoster.Proofs.Intake.Independent
import ClientRoster.Proofs.Intake.Outranked
import ClientRoster.Proofs.Intake.Accounted
import ClientRoster.Proofs.Daemon.Reporter
import ClientRoster.Proofs.Intake.Paced
import ClientRoster.Proofs.Notice.Exchange
import ClientRoster.Proofs.Roster.Filing
import ClientRoster.Proofs.Roster.Visit
import ClientRoster.Proofs.Roster.WellKept
import ClientRoster.Proofs.Json.Record
import ClientRoster.Proofs.Json.Rounding
import ClientRoster.Proofs.Json.Significand
import ClientRoster.Proofs.Json.Magnitude
import ClientRoster.Proofs.Roster.Clientwise
import ClientRoster.Proofs.Roster.Upsert
import ClientRoster.Proofs.Settings.Form
import ClientRoster.Proofs.Settings.Text
import ClientRoster.Proofs.Notice.Creation
