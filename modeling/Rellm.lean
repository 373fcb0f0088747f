import Rellm.Cluster.Exclusion
import Rellm.Configuration.Interleaving
import Rellm.Configuration.Secrets
import Rellm.Sync.MovedOccasions
import Rellm.Sync.Listed
import Rellm.Sync.Idempotence
import Rellm.Sync.Queue
import Rellm.Paging.Occurrences
import Rellm.Paging.Windows
import Rellm.Sync.InFlight
import Rellm.Market.ExactlyOnce
import Rellm.Market.Capped
import Rellm.Market.Terms
import Rellm.Market.ChargedOnce
import Rellm.Market.LatestEntitlement
import Rellm.Market.Notes
import Rellm.Authentication.Sessions
import Rellm.Rsvps.Limit
import Rellm.Rsvps.Answers
import Rellm.Rsvps.Parity
import Rellm.Events.Moderated
import Rellm.Posts.Responses
import Rellm.Users.Counted
import Rellm.Ai.Grants
import Rellm.Foundation.Bytes
import Rellm.Protos.Ids
import Rellm.Cache.Confined
import Rellm.Client.Accounts
import Rellm.Client.Merges
import Rellm.Client.Player
import Rellm.Client.Playing
import Rellm.Client.SignedIn
import Rellm.Cluster.Jobs
import Rellm.Destinations.Configuration
import Rellm.Destinations.Credentials
import Rellm.Destinations.Crosspost
import Rellm.Destinations.Unseen
import Rellm.Events.Edited
import Rellm.Events.Matched
import Rellm.Events.OccasionCounts
import Rellm.Groups.Approved
import Rellm.Hls.Segmenting
import Rellm.Market.Signature
import Rellm.Media.Accounting
import Rellm.Media.Licensed
import Rellm.Media.Quotas
import Rellm.Messages.Delivered
import Rellm.Paging.Budget
import Rellm.Posts.Edits
import Rellm.Rsvps.Edited
import Rellm.Sync.FeedSync
import Rellm.Users.Accounts
import Rellm.Users.Codes
import Rellm.Users.Cooldown
import Rellm.Users.Interleaved
import Rellm.Users.Replies
import Rellm.Users.Verified
import Rellm.Users.Visible
import Rellm.Foundation.Words
import Rellm.Messages.Rebuilt
import Rellm.Destinations.Messages
import Rellm.Foundation.Percent
import Rellm.Market.Relisted
import Rellm.Media.Downloads
import Rellm.Media.Ranges
import Rellm.Foundation.Pages
import Rellm.Media.Listing
import Rellm.Media.Paged
import Rellm.Media.Shown
import Rellm.Users.Paged
import Rellm.Configuration.StoredTabs
import Rellm.Foundation.Threads
import Rellm.Messages.Read
import Rellm.Posts.Threads
import Rellm.Client.Addresses
import Rellm.Client.Networks
import Rellm.Client.Probing
import Rellm.Client.Scrolling
import Rellm.Foundation.Replacing
import Rellm.Market.BillingDay
import Rellm.Market.Undisturbed
import Rellm.Messages.Listing
import Rellm.Messages.Repaired
import Rellm.Rsvps.Tokens
import Rellm.Users.ContactIntegrations
import Rellm.Web.SpaPages
import Rellm.Previews.Sessions
import Rellm.Previews.Settled
