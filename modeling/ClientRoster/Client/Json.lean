import ClientRoster.Client
import ClientRoster.Source.Reader
import ClientRoster.Whois.Json

/-!
# `ClientRoster.Client.Json` — records in documents

A record is written with its address first and then its occupied slots, weakest source first. A vacant slot is
left out, an occupied one without host names is an empty array.
-/

namespace ClientRoster.Client

open Json

/-- A list of host names as a document. -/
def hostsDoc (hosts : List String) : Doc := .list (hosts.map .text)

/-- A record as a document. -/
def toDoc (c : Client) : Doc :=
  .record (("addr", .text c.addr.text) ::
    [("whois", c.whois.map Whois.toDoc), ("arp", c.arp.map hostsDoc), ("rdns", c.rdns.map hostsDoc),
      ("dhcp", c.dhcp.map hostsDoc), ("hosts_file", c.hostsFile.map hostsDoc)].filterMap
        fun slot => slot.2.map fun value => (slot.1, value))

end ClientRoster.Client
