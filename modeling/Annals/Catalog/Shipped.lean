/-!
# The catalog that comes with the library

The text of a catalog document with the usual events of a realm. The default settings name it by its
path, and a program that has files reads it from there. It is kept as a value for callers that have
none and ask for the usual events, so that the same years can be told with and without files.
-/

namespace Annals.Catalog

/-- The lines of the document. -/
def shippedLines : List String := [
  "\x7b",
  "  \"events\": \x7b",
  "    \"natural\": \x7b",
  "      \"earthquake\": \x7b",
  "        \"id\": \"earthquake\",",
  "        \"name\": \"Earthquake\",",
  "        \"description\": \"The earth splits across the southern farmland.\",",
  "        \"severity\": \"high\",",
  "        \"region\": \"Southern Plains\",",
  "        \"conditions\": [",
  "          \x7b\"type\": \"region\", \"region\": \"Southern Plains\", " ++
    "\"stat\": \"fertility\", \"operator\": \">=\", \"value\": 60\x7d",
  "        ],",
  "        \"effects\": [",
  "          \x7b\"type\": \"modify_stat\", \"region\": \"Southern Plains\", " ++
    "\"stat\": \"fertility\", \"value\": -20\x7d,",
  "          \x7b\"type\": \"modify_stat\", \"region\": \"Southern Plains\", " ++
    "\"stat\": \"trade\", \"value\": -10\x7d",
  "        ],",
  "        \"followup_events\": [",
  "          \x7b\"id\": \"aftershock\", \"delay\": 1, \"probability\": 0.6\x7d",
  "        ]",
  "      \x7d,",
  "      \"aftershock\": \x7b",
  "        \"name\": \"Aftershock\",",
  "        \"description\": \"The ground trembles again a year later.\",",
  "        \"severity\": \"low\",",
  "        \"region\": \"Southern Plains\",",
  "        \"is_followup\": true,",
  "        \"conditions\": [],",
  "        \"effects\": [",
  "          \x7b\"type\": \"modify_stat\", \"region\": \"Southern Plains\", " ++
    "\"stat\": \"fertility\", \"value\": -5\x7d",
  "        ]",
  "      \x7d,",
  "      \"bountiful_harvest\": \x7b",
  "        \"name\": \"Bountiful Harvest\",",
  "        \"description\": \"The valley fields overflow with grain.\",",
  "        \"region\": \"Central Valley\",",
  "        \"impact\": \"prosperity\",",
  "        \"conditions\": [",
  "          \x7b\"type\": \"region\", \"region\": \"Central Valley\", " ++
    "\"stat\": \"fertility\", \"operator\": \"<\", \"value\": 90\x7d,",
  "          \x7b\"type\": \"year\", \"operator\": \">\", \"value\": 1002\x7d",
  "        ],",
  "        \"effects\": [",
  "          \x7b\"type\": \"modify_stat\", \"region\": \"Central Valley\", " ++
    "\"stat\": \"fertility\", \"value\": 5\x7d,",
  "          \x7b\"type\": \"modify_stat\", \"region\": \"Central Valley\", " ++
    "\"stat\": \"trade\", \"value\": 5\x7d",
  "        ]",
  "      \x7d,",
  "      \"desert_storm\": \x7b",
  "        \"name\": \"Desert Storm\",",
  "        \"description\": \"Sand buries the caravan routes of the west.\",",
  "        \"severity\": \"moderate\",",
  "        \"region\": \"Western Deserts\",",
  "        \"conditions\": [",
  "          \x7b\"type\": \"region\", \"region\": \"Western Deserts\", " ++
    "\"stat\": \"trade\", \"operator\": \">\", \"value\": 25\x7d",
  "        ],",
  "        \"effects\": [",
  "          \x7b\"type\": \"modify_stat\", \"region\": \"Western Deserts\", " ++
    "\"stat\": \"trade\", \"value\": -10\x7d,",
  "          \x7b\"type\": \"modify_stat\", \"faction\": \"Merchant League\", " ++
    "\"stat\": \"trade_income\", \"value\": -5\x7d",
  "        ]",
  "      \x7d,",
  "      \"forest_regrowth\": \x7b",
  "        \"name\": \"Forest Regrowth\",",
  "        \"description\": \"Old groves spread over abandoned land.\",",
  "        \"region\": \"Eastern Forests\",",
  "        \"conditions\": [",
  "          \x7b\"type\": \"region\", \"region\": \"Eastern Forests\", " ++
    "\"stat\": \"creature_diversity\", \"operator\": \"<=\", \"value\": 70\x7d",
  "        ],",
  "        \"effects\": [",
  "          \x7b\"type\": \"modify_stat\", \"region\": \"Eastern Forests\", " ++
    "\"stat\": \"creature_diversity\", \"value\": 10\x7d,",
  "          \x7b\"type\": \"modify_stat\", \"region\": \"Southern Plains\", " ++
    "\"stat\": \"fertility\", \"value\": 10\x7d",
  "        ]",
  "      \x7d",
  "    \x7d,",
  "    \"magical\": \x7b",
  "      \"mana_surge\": \x7b",
  "        \"name\": \"Mana Surge\",",
  "        \"description\": \"Raw magic floods the valley ley lines.\",",
  "        \"severity\": \"high\",",
  "        \"faction\": \"Mages' Guild\",",
  "        \"conditions\": [",
  "          \x7b\"type\": \"common\", \"value\": \"magical_instability\"\x7d",
  "        ],",
  "        \"effects\": [",
  "          \x7b\"type\": \"modify_stat\", \"faction\": \"Mages' Guild\", " ++
    "\"stat\": \"power\", \"value\": 15\x7d,",
  "          \x7b\"type\": \"modify_stat\", \"region\": \"Central Valley\", " ++
    "\"stat\": \"magical_energy\", \"value\": -40\x7d",
  "        ],",
  "        \"followup_events\": [",
  "          \x7b\"id\": \"mana_aftermath\", \"probability\": 1.0\x7d",
  "        ]",
  "      \x7d,",
  "      \"mana_aftermath\": \x7b",
  "        \"name\": \"Mana Aftermath\",",
  "        \"description\": \"Spent magic leaves the Guild in disarray.\",",
  "        \"faction\": \"Mages' Guild\",",
  "        \"is_followup\": true,",
  "        \"conditions\": [],",
  "        \"effects\": [",
  "          \x7b\"type\": \"modify_stat\", \"faction\": \"Mages' Guild\", " ++
    "\"stat\": \"stability\", \"value\": -10\x7d",
  "        ],",
  "        \"followup_events\": [",
  "          \x7b\"id\": \"archmage_succession\", \"delay\": 3, \"probability\": 0.5\x7d",
  "        ]",
  "      \x7d,",
  "      \"archmage_succession\": \x7b",
  "        \"name\": \"A New Archmage\",",
  "        \"description\": \"The Guild names a new archmage after years of unrest.\",",
  "        \"faction\": \"Mages' Guild\",",
  "        \"is_followup\": true,",
  "        \"conditions\": [],",
  "        \"effects\": [",
  "          \x7b\"type\": \"change_leader\", \"faction\": \"Mages' Guild\", " ++
    "\"new_leader\": \"Archmage Seraphine\"\x7d,",
  "          \x7b\"type\": \"modify_stat\", \"faction\": \"Mages' Guild\", " ++
    "\"stat\": \"stability\", \"value\": 15\x7d",
  "        ]",
  "      \x7d,",
  "      \"ley_line_convergence\": \x7b",
  "        \"name\": \"Ley Line Convergence\",",
  "        \"description\": \"Ley lines gather beneath the central valley.\",",
  "        \"region\": \"Central Valley\",",
  "        \"conditions\": [",
  "          \x7b\"type\": \"region\", \"region\": \"Central Valley\", " ++
    "\"stat\": \"magical_energy\", \"operator\": \"<\", \"value\": 80\x7d,",
  "          \x7b\"type\": \"region\", \"region\": \"Eastern Forests\", " ++
    "\"stat\": \"magical_energy\", \"operator\": \">=\", \"value\": 50\x7d",
  "        ],",
  "        \"effects\": [",
  "          \x7b\"type\": \"modify_stat\", \"region\": \"Central Valley\", " ++
    "\"stat\": \"magical_energy\", \"value\": 10\x7d,",
  "          \x7b\"type\": \"modify_stat\", \"region\": \"Eastern Forests\", " ++
    "\"stat\": \"magical_energy\", \"value\": -5\x7d",
  "        ]",
  "      \x7d,",
  "      \"dragon_sighting\": \x7b",
  "        \"name\": \"Dragon Sighting\",",
  "        \"description\": \"A dragon is seen circling the northern peaks.\",",
  "        \"severity\": \"high\",",
  "        \"region\": \"Northern Mountains\",",
  "        \"conditions\": [",
  "          \x7b\"type\": \"region\", \"region\": \"Northern Mountains\", " ++
    "\"stat\": \"magical_energy\", \"operator\": \">=\", \"value\": 25\x7d",
  "        ],",
  "        \"effects\": [",
  "          \x7b\"type\": \"modify_stat\", \"region\": \"Northern Mountains\", " ++
    "\"stat\": \"dragon_activity\", \"value\": 15\x7d,",
  "          \x7b\"type\": \"modify_stat\", \"region\": \"Northern Mountains\", " ++
    "\"stat\": \"trade\", \"value\": -10\x7d,",
  "          \x7b\"type\": \"modify_stat\", \"region\": \"Northern Mountains\", " ++
    "\"stat\": \"magical_energy\", \"value\": -10\x7d",
  "        ],",
  "        \"followup_events\": [",
  "          \x7b\"id\": \"dragon_departs\", \"delay\": 2, \"probability\": 0.8\x7d",
  "        ]",
  "      \x7d,",
  "      \"dragon_departs\": \x7b",
  "        \"name\": \"The Dragon Departs\",",
  "        \"description\": \"The dragon leaves the mountains and trade resumes.\",",
  "        \"region\": \"Northern Mountains\",",
  "        \"is_followup\": true,",
  "        \"conditions\": [],",
  "        \"effects\": [",
  "          \x7b\"type\": \"modify_stat\", \"region\": \"Northern Mountains\", " ++
    "\"stat\": \"dragon_activity\", \"value\": -15\x7d,",
  "          \x7b\"type\": \"modify_stat\", \"region\": \"Northern Mountains\", " ++
    "\"stat\": \"trade\", \"value\": 10\x7d,",
  "          \x7b\"type\": \"modify_stat\", \"region\": \"Northern Mountains\", " ++
    "\"stat\": \"magical_energy\", \"value\": 15\x7d",
  "        ]",
  "      \x7d",
  "    \x7d,",
  "    \"political\": \x7b",
  "      \"noble_unrest\": \x7b",
  "        \"name\": \"Noble Unrest\",",
  "        \"description\": \"Lesser houses defy the crown.\",",
  "        \"severity\": \"moderate\",",
  "        \"faction\": \"Noble Houses\",",
  "        \"conditions\": [",
  "          \x7b\"type\": \"faction\", \"faction\": \"Noble Houses\", " ++
    "\"stat\": \"stability\", \"operator\": \">\", \"value\": 30\x7d,",
  "          \x7b\"type\": \"faction\", \"faction\": \"Dark Brotherhood\", " ++
    "\"stat\": \"influence\", \"operator\": \">=\", \"value\": 40\x7d",
  "        ],",
  "        \"effects\": [",
  "          \x7b\"type\": \"modify_stat\", \"faction\": \"Noble Houses\", " ++
    "\"stat\": \"stability\", \"value\": -15\x7d,",
  "          \x7b\"type\": \"modify_stat\", \"faction\": \"Dark Brotherhood\", " ++
    "\"stat\": \"influence\", \"value\": 5\x7d",
  "        ]",
  "      \x7d,",
  "      \"royal_crisis\": \x7b",
  "        \"name\": \"Royal Crisis\",",
  "        \"description\": \"The realm teeters as the noble houses split.\",",
  "        \"severity\": \"high\",",
  "        \"faction\": \"Noble Houses\",",
  "        \"impact\": \"realm-wide\",",
  "        \"conditions\": [",
  "          \x7b\"type\": \"common\", \"value\": \"realm_in_crisis\"\x7d",
  "        ],",
  "        \"effects\": [",
  "          \x7b\"type\": \"modify_stat\", \"faction\": \"Noble Houses\", " ++
    "\"stat\": \"power\", \"value\": -10\x7d,",
  "          \x7b\"type\": \"modify_stat\", \"faction\": \"Temple of Light\", " ++
    "\"stat\": \"influence\", \"value\": 10\x7d",
  "        ],",
  "        \"followup_events\": [",
  "          \x7b\"id\": \"temple_mediation\", \"probability\": 0.7\x7d,",
  "          \x7b\"id\": \"restoration\", \"delay\": 2, \"probability\": 1.0\x7d",
  "        ]",
  "      \x7d,",
  "      \"temple_mediation\": \x7b",
  "        \"name\": \"Temple Mediation\",",
  "        \"description\": \"Priests of the Temple broker a truce between the houses.\",",
  "        \"faction\": \"Temple of Light\",",
  "        \"is_followup\": true,",
  "        \"conditions\": [],",
  "        \"effects\": [",
  "          \x7b\"type\": \"modify_stat\", \"faction\": \"Noble Houses\", " ++
    "\"stat\": \"stability\", \"value\": 10\x7d,",
  "          \x7b\"type\": \"modify_stat\", \"faction\": \"Temple of Light\", " ++
    "\"stat\": \"stability\", \"value\": -5\x7d",
  "        ]",
  "      \x7d,",
  "      \"restoration\": \x7b",
  "        \"name\": \"Restoration of Order\",",
  "        \"description\": \"The crown reasserts its authority.\",",
  "        \"faction\": \"Noble Houses\",",
  "        \"is_followup\": true,",
  "        \"conditions\": [],",
  "        \"effects\": [",
  "          \x7b\"type\": \"modify_stat\", \"faction\": \"Noble Houses\", " ++
    "\"stat\": \"stability\", \"value\": 30\x7d,",
  "          \x7b\"type\": \"modify_stat\", \"faction\": \"Dark Brotherhood\", " ++
    "\"stat\": \"influence\", \"value\": -15\x7d",
  "        ]",
  "      \x7d,",
  "      \"trade_agreement\": \x7b",
  "        \"name\": \"Trade Agreement\",",
  "        \"description\": \"The Merchant League signs a pact with the coastal ports.\",",
  "        \"faction\": \"Merchant League\",",
  "        \"region\": \"Coastal Regions\",",
  "        \"conditions\": [",
  "          \x7b\"type\": \"faction\", \"faction\": \"Merchant League\", " ++
    "\"stat\": \"stability\", \"operator\": \">=\", \"value\": 50\x7d,",
  "          \x7b\"type\": \"region\", \"region\": \"Coastal Regions\", " ++
    "\"stat\": \"trade\", \"operator\": \"<\", \"value\": 95\x7d",
  "        ],",
  "        \"effects\": [",
  "          \x7b\"type\": \"modify_stat\", \"region\": \"Coastal Regions\", " ++
    "\"stat\": \"trade\", \"value\": 5\x7d,",
  "          \x7b\"type\": \"modify_stat\", \"faction\": \"Merchant League\", " ++
    "\"stat\": \"trade_income\", \"value\": 5\x7d,",
  "          \x7b\"type\": \"modify_stat\", \"faction\": \"Merchant League\", " ++
    "\"stat\": \"stability\", \"value\": -5\x7d",
  "        ]",
  "      \x7d,",
  "      \"guild_rivalry\": \x7b",
  "        \"name\": \"Guild Rivalry\",",
  "        \"description\": \"The Archmage quarrels openly with the Temple.\",",
  "        \"faction\": \"Mages' Guild\",",
  "        \"conditions\": [",
  "          \x7b\"type\": \"faction\", \"faction\": \"Mages' Guild\", " ++
    "\"stat\": \"leader\", \"operator\": \"==\", \"value\": \"Archmage Eldrin\"\x7d,",
  "          \x7b\"type\": \"faction\", \"faction\": \"Temple of Light\", " ++
    "\"stat\": \"influence\", \"operator\": \">=\", \"value\": 70\x7d",
  "        ],",
  "        \"effects\": [",
  "          \x7b\"type\": \"modify_stat\", \"faction\": \"Temple of Light\", " ++
    "\"stat\": \"influence\", \"value\": -10\x7d,",
  "          \x7b\"type\": \"modify_stat\", \"faction\": \"Mages' Guild\", " ++
    "\"stat\": \"influence\", \"value\": 5\x7d",
  "        ]",
  "      \x7d",
  "    \x7d",
  "  \x7d",
  "\x7d",
  ""]

/-- The document. -/
def shippedText : String := String.intercalate "\n" shippedLines

end Annals.Catalog
