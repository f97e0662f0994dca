import ServiceCompiler.Files.Tree
import ServiceCompiler.Text.Octets

namespace ServiceCompiler

/-!
# Time zones

The time zones that a connection may ask for.  Those in use are files below a directory, so that a
name is followed like a path; those that are kept for older programs stand in an archive, by their
exact names.
-/

/-- The names of places by region; those without one come first. -/
abbrev Regions := List (String × String)

/-- The names in full. -/
def Regions.names (regions : Regions) : List String :=
  regions.flatMap fun (region, places) => (Text.words places.toList).map fun place =>
    (if region = "" then "" else region ++ "/") ++ String.ofList place

/-- The files of the time zones in use. -/
def zoneNames : List String := Regions.names
  [("", "CET CST6CDT EET EST EST5EDT Factory GMT HST MET MST MST7MDT PST8PDT UTC WET localtime
     posixrules"),
   ("Africa", "Abidjan Accra Addis_Ababa Algiers Asmara Bamako Bangui Banjul Bissau Blantyre
     Brazzaville Bujumbura Cairo Casablanca Ceuta Conakry Dakar Dar_es_Salaam Djibouti Douala
     El_Aaiun Freetown Gaborone Harare Johannesburg Juba Kampala Khartoum Kigali Kinshasa Lagos
     Libreville Lome Luanda Lubumbashi Lusaka Malabo Maputo Maseru Mbabane Mogadishu Monrovia
     Nairobi Ndjamena Niamey Nouakchott Ouagadougou Porto-Novo Sao_Tome Timbuktu Tripoli Tunis
     Windhoek"),
   ("America", "Adak Anchorage Anguilla Antigua Araguaina Aruba Asuncion Atikokan Atka Bahia
     Bahia_Banderas Barbados Belem Belize Blanc-Sablon Boa_Vista Bogota Boise Cambridge_Bay
     Campo_Grande Cancun Caracas Cayenne Cayman Chicago Chihuahua Ciudad_Juarez Coral_Harbour
     Costa_Rica Coyhaique Creston Cuiaba Curacao Danmarkshavn Dawson Dawson_Creek Denver Detroit
     Dominica Edmonton Eirunepe El_Salvador Ensenada Fort_Nelson Fortaleza Glace_Bay Goose_Bay
     Grand_Turk Grenada Guadeloupe Guatemala Guayaquil Guyana Halifax Havana Hermosillo Inuvik
     Iqaluit Jamaica Juneau Kralendijk La_Paz Lima Los_Angeles Lower_Princes Maceio Managua
     Manaus Marigot Martinique Matamoros Mazatlan Menominee Merida Metlakatla Mexico_City
     Miquelon Moncton Monterrey Montevideo Montreal Montserrat Nassau New_York Nipigon Nome
     Noronha Nuuk Ojinaga Panama Pangnirtung Paramaribo Phoenix Port-au-Prince Port_of_Spain
     Porto_Acre Porto_Velho Puerto_Rico Punta_Arenas Rainy_River Rankin_Inlet Recife Regina
     Resolute Rio_Branco Santa_Isabel Santarem Santiago Santo_Domingo Sao_Paulo Scoresbysund
     Shiprock Sitka St_Barthelemy St_Johns St_Kitts St_Lucia St_Thomas St_Vincent Swift_Current
     Tegucigalpa Thule Thunder_Bay Tijuana Toronto Tortola Vancouver Virgin Whitehorse Winnipeg
     Yakutat Yellowknife"),
   ("America/Argentina", "Buenos_Aires Catamarca Cordoba Jujuy La_Rioja Mendoza Rio_Gallegos
     Salta San_Juan San_Luis Tucuman Ushuaia"),
   ("America/Indiana", "Indianapolis Knox Marengo Petersburg Tell_City Vevay Vincennes Winamac"),
   ("America/Kentucky", "Louisville Monticello"),
   ("America/North_Dakota", "Beulah Center New_Salem"),
   ("Antarctica", "Casey Davis DumontDUrville Macquarie Mawson McMurdo Palmer Rothera Syowa Troll
     Vostok"),
   ("Arctic", "Longyearbyen"),
   ("Asia", "Aden Almaty Amman Anadyr Aqtau Aqtobe Ashgabat Atyrau Baghdad Bahrain Baku Bangkok
     Barnaul Beirut Bishkek Brunei Chita Choibalsan Chongqing Colombo Damascus Dhaka Dili Dubai
     Dushanbe Famagusta Gaza Harbin Hebron Ho_Chi_Minh Hong_Kong Hovd Irkutsk Istanbul Jakarta
     Jayapura Jerusalem Kabul Kamchatka Karachi Kashgar Kathmandu Khandyga Kolkata Krasnoyarsk
     Kuala_Lumpur Kuching Kuwait Macau Magadan Makassar Manila Muscat Nicosia Novokuznetsk
     Novosibirsk Omsk Oral Phnom_Penh Pontianak Pyongyang Qatar Qostanay Qyzylorda Riyadh
     Sakhalin Samarkand Seoul Shanghai Singapore Srednekolymsk Taipei Tashkent Tbilisi Tehran
     Tel_Aviv Thimphu Tokyo Tomsk Ulaanbaatar Urumqi Ust-Nera Vientiane Vladivostok Yakutsk
     Yangon Yekaterinburg Yerevan"),
   ("Atlantic", "Azores Bermuda Canary Cape_Verde Faroe Jan_Mayen Madeira Reykjavik South_Georgia
     St_Helena Stanley"),
   ("Australia", "Adelaide Brisbane Broken_Hill Canberra Currie Darwin Eucla Hobart Lindeman
     Lord_Howe Melbourne Perth Sydney Yancowinna"),
   ("Etc", "GMT GMT+0 GMT+1 GMT+10 GMT+11 GMT+12 GMT+2 GMT+3 GMT+4 GMT+5 GMT+6 GMT+7 GMT+8 GMT+9
     GMT-0 GMT-1 GMT-10 GMT-11 GMT-12 GMT-13 GMT-14 GMT-2 GMT-3 GMT-4 GMT-5 GMT-6 GMT-7 GMT-8
     GMT-9 GMT0 Greenwich UCT UTC Universal Zulu"),
   ("Europe", "Amsterdam Andorra Astrakhan Athens Belfast Belgrade Berlin Bratislava Brussels
     Bucharest Budapest Busingen Chisinau Copenhagen Dublin Gibraltar Guernsey Helsinki
     Isle_of_Man Istanbul Jersey Kaliningrad Kirov Kyiv Lisbon Ljubljana London Luxembourg Madrid
     Malta Mariehamn Minsk Monaco Moscow Nicosia Oslo Paris Podgorica Prague Riga Rome Samara
     San_Marino Sarajevo Saratov Simferopol Skopje Sofia Stockholm Tallinn Tirane Tiraspol
     Ulyanovsk Vaduz Vatican Vienna Vilnius Volgograd Warsaw Zagreb Zurich"),
   ("Indian", "Antananarivo Chagos Christmas Cocos Comoro Kerguelen Mahe Maldives Mauritius
     Mayotte Reunion"),
   ("Pacific", "Apia Auckland Bougainville Chatham Chuuk Easter Efate Fakaofo Fiji Funafuti
     Galapagos Gambier Guadalcanal Guam Honolulu Johnston Kanton Kiritimati Kosrae Kwajalein
     Majuro Marquesas Midway Nauru Niue Norfolk Noumea Pago_Pago Palau Pitcairn Pohnpei
     Port_Moresby Rarotonga Saipan Samoa Tahiti Tarawa Tongatapu Wake Wallis Yap")]

/-- The time zones kept for older programs. -/
def archivedZoneNames : List String := Regions.names
  [("", "Cuba Egypt Eire GB GB-Eire GMT+0 GMT-0 GMT0 Greenwich Hongkong Iceland Iran Israel
     Jamaica Japan Kwajalein Libya NZ NZ-CHAT Navajo PRC Poland Portugal ROC ROK Singapore Turkey
     UCT Universal W-SU Zulu"),
   ("Africa", "Asmera"),
   ("America/Argentina", "ComodRivadavia"),
   ("America", "Buenos_Aires Catamarca Cordoba Fort_Wayne Godthab Indianapolis Jujuy Knox_IN
     Louisville Mendoza Rosario"),
   ("Antarctica", "South_Pole"),
   ("Asia", "Ashkhabad Calcutta Chungking Dacca Katmandu Macao Rangoon Saigon Thimbu
     Ujung_Pandang Ulan_Bator"),
   ("Atlantic", "Faeroe"),
   ("Australia", "ACT LHI NSW North Queensland South Tasmania Victoria West"),
   ("Brazil", "Acre DeNoronha East West"),
   ("Canada", "Atlantic Central Eastern Mountain Newfoundland Pacific Saskatchewan Yukon"),
   ("Chile", "Continental EasterIsland"),
   ("Europe", "Kiev Uzhgorod Zaporozhye"),
   ("Mexico", "BajaNorte BajaSur General"),
   ("Pacific", "Enderbury Ponape Truk"),
   ("US", "Alaska Aleutian Arizona Central East-Indiana Eastern Hawaii Indiana-Starke Michigan
     Mountain Pacific Samoa")]

/-- The files beside the time zones that are none. -/
def zoneTables : List String :=
  ["iso3166.tab", "leap-seconds.list", "leapseconds", "tzdata.zi", "zone.tab", "zone1970.tab",
   "zonenow.tab"]

/-- What the file of a time zone begins with. -/
def zoneMark : String := "TZif"

/-- The path of the directory of the time zones. -/
def zoneDirectory : String := "/usr/share/zoneinfo/"

/-- The directory of the time zones with its files and the directories that they lie in. -/
def zoneTree : FileTree :=
  let base : FileTree := { workingDirectory := Files.clean zoneDirectory }
  let addresses := zoneNames.map Files.parts
  let directories := (addresses.flatMap fun a => (List.range a.length).map a.take).eraseDups
  { base with
    entries := addresses.map (fun a => (base.home ++ a, .file zoneMark))
      ++ zoneTables.map (fun name => (base.home ++ [name], .file ""))
      ++ directories.map (fun a => (base.home ++ a, .directory)) }

/-- Why a time zone cannot be used. -/
inductive ZoneError where
  | misnamed
  | unknown (name : Text.Octets)
  | malformed
  | unreadable (problem : FileProblem)
  deriving DecidableEq, Repr

/-- The text of an error. -/
def ZoneError.message : ZoneError → String
  | .misnamed => "time: invalid location name"
  | .unknown name => "unknown time zone " ++ name.toText
  | .malformed => "malformed time zone information"
  | .unreadable problem => problem.text

/-- Looks for the time zone of a name.  A name may not lead out of the directory. -/
def findZone (name : Text.Octets) : Except ZoneError Unit :=
  let text := name.toText
  if text = "" ∨ text = "UTC" ∨ text = "Local" then .ok ()
  else if Text.contains ['.', '.'] text.toList ∨ name.head? = some 0x2f ∨ name.head? = some 0x5c then
    .error .misnamed
  else
    match zoneTree.read (zoneDirectory ++ "/" ++ text) with
    | .ok content => if content = zoneMark then .ok () else .error .malformed
    | .error e =>
      if e.problem ≠ .missing then .error (.unreadable e.problem)
      else if archivedZoneNames.contains text then .ok ()
      else .error (.unknown name)

end ServiceCompiler
