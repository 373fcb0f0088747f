import Rellm.Protos.Common

/-!
# Permissions

The permission enumeration, its stored names and the permission checks of the
configuration RPCs. A user's permissions are stored as a JSON array of names.
-/

namespace Rellm

/-- Something a user may be allowed to do. -/
inductive Permission where
  | unknown
  | viewUsers
  | publishUsersLocally
  | publishUsersGlobally
  | moderateUsers
  | followUsers
  | grantBasicPermissions
  | viewGroups
  | createGroups
  | publishGroupsLocally
  | publishGroupsGlobally
  | moderateGroups
  | joinGroups
  | inviteGroupMembers
  | viewPosts
  | createPosts
  | publishPostsLocally
  | publishPostsGlobally
  | moderatePosts
  | replyToPosts
  | editPostTitlesAndLinks
  | viewEvents
  | createEvents
  | publishEventsLocally
  | publishEventsGlobally
  | moderateEvents
  | rsvpToEvents
  | syncEventsToFacebook
  | syncPostsToFacebook
  | syncEventsToInstagram
  | syncPostsToInstagram
  | syncEventsToMastodon
  | syncPostsToMastodon
  | syncEventsToBluesky
  | syncPostsToBluesky
  | syncEventsToXTwitter
  | syncPostsToXTwitter
  | syncEventsToThreads
  | syncPostsToThreads
  | viewMedia
  | createMedia
  | publishMediaLocally
  | publishMediaGlobally
  | moderateMedia
  | readPersonalMessages
  | readAllSystemMessages
  | createAiProviders
  | syncEventsFromIcs
  | syncPostsFromRss
  | syncPostsFromAtom
  | business
  | runBots
  | admin
  | viewPrivateContactMethods
  | editClusterSettings
  | editServerMediaAllocation
  | viewServerLogs
  deriving DecidableEq, Repr

namespace Permission

/-- The name a permission is stored under. -/
def asStrName : Permission → String
  | .unknown => "PERMISSION_UNKNOWN"
  | .viewUsers => "VIEW_USERS"
  | .publishUsersLocally => "PUBLISH_USERS_LOCALLY"
  | .publishUsersGlobally => "PUBLISH_USERS_GLOBALLY"
  | .moderateUsers => "MODERATE_USERS"
  | .followUsers => "FOLLOW_USERS"
  | .grantBasicPermissions => "GRANT_BASIC_PERMISSIONS"
  | .viewGroups => "VIEW_GROUPS"
  | .createGroups => "CREATE_GROUPS"
  | .publishGroupsLocally => "PUBLISH_GROUPS_LOCALLY"
  | .publishGroupsGlobally => "PUBLISH_GROUPS_GLOBALLY"
  | .moderateGroups => "MODERATE_GROUPS"
  | .joinGroups => "JOIN_GROUPS"
  | .inviteGroupMembers => "INVITE_GROUP_MEMBERS"
  | .viewPosts => "VIEW_POSTS"
  | .createPosts => "CREATE_POSTS"
  | .publishPostsLocally => "PUBLISH_POSTS_LOCALLY"
  | .publishPostsGlobally => "PUBLISH_POSTS_GLOBALLY"
  | .moderatePosts => "MODERATE_POSTS"
  | .replyToPosts => "REPLY_TO_POSTS"
  | .editPostTitlesAndLinks => "EDIT_POST_TITLES_AND_LINKS"
  | .viewEvents => "VIEW_EVENTS"
  | .createEvents => "CREATE_EVENTS"
  | .publishEventsLocally => "PUBLISH_EVENTS_LOCALLY"
  | .publishEventsGlobally => "PUBLISH_EVENTS_GLOBALLY"
  | .moderateEvents => "MODERATE_EVENTS"
  | .rsvpToEvents => "RSVP_TO_EVENTS"
  | .syncEventsToFacebook => "SYNC_EVENTS_TO_FACEBOOK"
  | .syncPostsToFacebook => "SYNC_POSTS_TO_FACEBOOK"
  | .syncEventsToInstagram => "SYNC_EVENTS_TO_INSTAGRAM"
  | .syncPostsToInstagram => "SYNC_POSTS_TO_INSTAGRAM"
  | .syncEventsToMastodon => "SYNC_EVENTS_TO_MASTODON"
  | .syncPostsToMastodon => "SYNC_POSTS_TO_MASTODON"
  | .syncEventsToBluesky => "SYNC_EVENTS_TO_BLUESKY"
  | .syncPostsToBluesky => "SYNC_POSTS_TO_BLUESKY"
  | .syncEventsToXTwitter => "SYNC_EVENTS_TO_X_TWITTER"
  | .syncPostsToXTwitter => "SYNC_POSTS_TO_X_TWITTER"
  | .syncEventsToThreads => "SYNC_EVENTS_TO_THREADS"
  | .syncPostsToThreads => "SYNC_POSTS_TO_THREADS"
  | .viewMedia => "VIEW_MEDIA"
  | .createMedia => "CREATE_MEDIA"
  | .publishMediaLocally => "PUBLISH_MEDIA_LOCALLY"
  | .publishMediaGlobally => "PUBLISH_MEDIA_GLOBALLY"
  | .moderateMedia => "MODERATE_MEDIA"
  | .readPersonalMessages => "READ_PERSONAL_MESSAGES"
  | .readAllSystemMessages => "READ_ALL_SYSTEM_MESSAGES"
  | .createAiProviders => "CREATE_AI_PROVIDERS"
  | .syncEventsFromIcs => "SYNC_EVENTS_FROM_ICS"
  | .syncPostsFromRss => "SYNC_POSTS_FROM_RSS"
  | .syncPostsFromAtom => "SYNC_POSTS_FROM_ATOM"
  | .business => "BUSINESS"
  | .runBots => "RUN_BOTS"
  | .admin => "ADMIN"
  | .viewPrivateContactMethods => "VIEW_PRIVATE_CONTACT_METHODS"
  | .editClusterSettings => "EDIT_CLUSTER_SETTINGS"
  | .editServerMediaAllocation => "EDIT_SERVER_MEDIA_ALLOCATION"
  | .viewServerLogs => "VIEW_SERVER_LOGS"

/-- The raw enumeration value of a permission. -/
def toI32 : Permission → Int32
  | .unknown => 0
  | .viewUsers => 1
  | .publishUsersLocally => 2
  | .publishUsersGlobally => 3
  | .moderateUsers => 4
  | .followUsers => 5
  | .grantBasicPermissions => 6
  | .viewGroups => 10
  | .createGroups => 11
  | .publishGroupsLocally => 12
  | .publishGroupsGlobally => 13
  | .moderateGroups => 14
  | .joinGroups => 15
  | .inviteGroupMembers => 16
  | .viewPosts => 20
  | .createPosts => 21
  | .publishPostsLocally => 22
  | .publishPostsGlobally => 23
  | .moderatePosts => 24
  | .replyToPosts => 25
  | .editPostTitlesAndLinks => 26
  | .viewEvents => 30
  | .createEvents => 31
  | .publishEventsLocally => 32
  | .publishEventsGlobally => 33
  | .moderateEvents => 34
  | .rsvpToEvents => 35
  | .syncEventsToFacebook => 1000
  | .syncPostsToFacebook => 1001
  | .syncEventsToInstagram => 1010
  | .syncPostsToInstagram => 1011
  | .syncEventsToMastodon => 1020
  | .syncPostsToMastodon => 1021
  | .syncEventsToBluesky => 1030
  | .syncPostsToBluesky => 1031
  | .syncEventsToXTwitter => 1040
  | .syncPostsToXTwitter => 1041
  | .syncEventsToThreads => 1050
  | .syncPostsToThreads => 1051
  | .viewMedia => 40
  | .createMedia => 41
  | .publishMediaLocally => 42
  | .publishMediaGlobally => 43
  | .moderateMedia => 44
  | .readPersonalMessages => 50
  | .readAllSystemMessages => 51
  | .createAiProviders => 60
  | .syncEventsFromIcs => 700
  | .syncPostsFromRss => 701
  | .syncPostsFromAtom => 702
  | .business => 9998
  | .runBots => 9999
  | .admin => 10000
  | .viewPrivateContactMethods => 10001
  | .editClusterSettings => 10002
  | .editServerMediaAllocation => 10003
  | .viewServerLogs => 10004

/-- The permissions stored names are compared with, in this order;
`EDIT_POST_TITLES_AND_LINKS` is not among them. -/
def allPermissions : List Permission :=
  [.unknown, .viewUsers, .publishUsersLocally, .publishUsersGlobally, .moderateUsers,
    .followUsers, .grantBasicPermissions, .viewGroups, .createGroups, .publishGroupsLocally,
    .publishGroupsGlobally, .moderateGroups, .joinGroups, .inviteGroupMembers, .viewPosts,
    .createPosts, .publishPostsLocally, .publishPostsGlobally, .moderatePosts, .replyToPosts,
    .viewEvents, .createEvents, .publishEventsLocally, .publishEventsGlobally, .moderateEvents,
    .rsvpToEvents, .syncEventsToFacebook, .syncPostsToFacebook, .syncEventsToInstagram,
    .syncPostsToInstagram, .syncEventsToMastodon, .syncPostsToMastodon, .syncEventsToBluesky,
    .syncPostsToBluesky, .syncEventsToXTwitter, .syncPostsToXTwitter, .syncEventsToThreads,
    .syncPostsToThreads, .viewMedia, .createMedia, .publishMediaLocally, .publishMediaGlobally,
    .moderateMedia, .readPersonalMessages, .readAllSystemMessages, .createAiProviders,
    .syncEventsFromIcs, .syncPostsFromRss, .syncPostsFromAtom, .business, .runBots, .admin,
    .viewPrivateContactMethods, .editClusterSettings, .editServerMediaAllocation, .viewServerLogs]

/-- The permission stored under a name, in any letter case. -/
def ofName (name : String) : Option Permission :=
  allPermissions.find? fun permission => eqIgnoreAsciiCase permission.asStrName name

/-- The permission with a raw enumeration value. -/
def ofI32 (value : Int32) : Option Permission :=
  (.editPostTitlesAndLinks :: allPermissions).find? fun permission => permission.toI32 = value

end Permission

/-- The permissions a JSON column names. -/
def NamesJson.toProtoPermissions (json : NamesJson) : List Permission :=
  json.decode Permission.ofName

/-- The raw permission values a JSON column names. -/
def NamesJson.toI32Permissions (json : NamesJson) : List Int32 :=
  json.toProtoPermissions.map Permission.toI32

/-- The JSON column of a request's raw permission values. A value outside the
enumeration has no defined conversion in the source and is dropped here. -/
def toJsonPermissions (values : List Int32) : NamesJson :=
  NamesJson.encode Permission.asStrName (unique (values.filterMap Permission.ofI32))

/-- The fields of a user row that the configuration RPCs read. -/
structure User where
  permissions : NamesJson
  deriving DecidableEq, Repr

/-- The permissions of an optional caller; none for an anonymous one. -/
def callerPermissions (user : Option User) : List Permission :=
  (user.map fun u => u.permissions.toProtoPermissions).getD []

/-- The reply to a caller who lacks a permission. -/
def permissionRequired (permission : Permission) : Status :=
  ⟨.invalidArgument, "permission_" ++ permission.asStrName ++ "_required"⟩

/-- Some of the permissions suffices; a failure names the first of them. -/
def validateAnyPermission (user : Option User) (first : Permission) (others : List Permission) :
    Except Status Unit :=
  if (first :: others).any fun p => p ∈ callerPermissions user then .ok ()
  else .error (permissionRequired first)

/-- The permission or `ADMIN` suffices. -/
def validatePermission (user : Option User) (permission : Permission) : Except Status Unit :=
  validateAnyPermission user permission [.admin]

/-- The permission itself is needed; `ADMIN` does not substitute for it. -/
def validateExactPermission (user : Option User) (permission : Permission) : Except Status Unit :=
  if permission ∈ callerPermissions user then .ok () else .error (permissionRequired permission)

/-- Whether a caller holds exactly the permission. -/
def holdsExactly (user : Option User) (permission : Permission) : Bool :=
  (validateExactPermission user permission).toBool

end Rellm
